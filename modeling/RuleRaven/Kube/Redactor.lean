import RuleRaven.Framework.Regex
import RuleRaven.Framework.Text
import Mathlib.Data.List.Infix

namespace RuleRaven.Kube

open Framework

def redactedValue : String := "[REDACTED]"

def foldEq (c d : Char) : Bool := foldChar c == foldChar d

/-- `\s` -/
def isRegexSpace (c : Char) : Bool :=
  c == '\t' || c == '\n' || c == '\x0c' || c == '\r' || c == ' '

/-- `[-_.a-z0-9]` under `(?i)` -/
def isKeyChar (c : Char) : Bool :=
  c == '-' || c == '_' || c == '.' || (foldChar c).isLower || c.isDigit

/-- `[^\s,;]` -/
def isValueChar (c : Char) : Bool := !(isRegexSpace c || c == ',' || c == ';')

/-- The text between two quotes of one kind. -/
def quoted (quote : Char) : Regex :=
  .seq (.char (· == quote)) (.seq (.many (· != quote)) (.char (· == quote)))

def sensitiveMarkers : List String :=
  ["secret", "token", "password", "authorization", "credential"]

def anyMarker : Regex :=
  .alt (.word foldEq "secret") (.alt (.word foldEq "token") (.alt (.word foldEq "password")
    (.alt (.word foldEq "authorization") (.word foldEq "credential"))))

def sensitiveAssignment : Regex :=
  .seq .boundary <| .seq (.group 1 anyMarker) <| .seq (.group 2 (.many isKeyChar)) <|
    .seq (.many isRegexSpace) <| .seq (.group 3 (.char fun c => c == '=' || c == ':')) <|
    .seq (.many isRegexSpace) <| .alt (quoted '"') (.alt (quoted '\'') (.some1 isValueChar))

def authorizationValue : Regex :=
  .seq .boundary <| .seq (.word foldEq "authorization") <| .seq (.some1 isRegexSpace) <|
    .seq (.alt (.seq (.word foldEq "bearer") (.some1 isRegexSpace)) .eps) (.some1 isValueChar)

def isSensitiveKey (key : String) : Bool :=
  sensitiveMarkers.any fun marker => decide (chars marker <:+: (chars key).map lowerChar)

def redactText (value : String) : String :=
  let assigned := sensitiveAssignment.replaceAll (fun captures =>
    captures.text 1 ++ captures.text 2 ++ captures.text 3 ++ redactedValue.toList) value
  authorizationValue.replaceAll (fun _ => ("authorization " ++ redactedValue).toList) assigned

example : redactText "db Password = \"x y\", ok" = "db Password=[REDACTED], ok" := by
  decide +kernel

example : redactText "sent Authorization Bearer abc; done" =
    "sent authorization [REDACTED]; done" := by decide +kernel

end RuleRaven.Kube
