import RuleRaven.Notify.Signing
import RuleRaven.Provider.Transport

namespace RuleRaven

open Framework

namespace Time

/-- The instant of some Unix seconds without the limits of 64 bits. -/
def instant (seconds : Int) : Time := (seconds + 62135596800) * 1000000000

/-- The years 1 to 9999. -/
def InCalendar (t : Time) : Prop := 0 ≤ t ∧ t < 315537897600000000000

example : format 315537897599000000000 = some "9999-12-31T23:59:59Z" ∧
    format 315537897600000000000 = none := by
  decide +kernel

theorem ofUnix_sum {seconds : Int} (hlo : -2 ^ 63 ≤ seconds) (hhi : seconds < 2 ^ 63) :
    (Int64.ofInt seconds + unixToInternal).toInt =
      if seconds + 62135596800 < 2 ^ 63 then seconds + 62135596800
      else seconds + 62135596800 - 2 ^ 64 := by
  rw [Int64.toInt_add, Int64.toInt_ofInt_of_le hlo hhi,
    show unixToInternal.toInt = 62135596800 from rfl]
  unfold Int.bmod
  dsimp only
  split_ifs <;> omega

theorem ofUnix_eq {seconds : Int} (hlo : -2 ^ 63 ≤ seconds) (h : seconds + 62135596800 < 2 ^ 63) :
    ofUnix (Int64.ofInt seconds) = instant seconds := by
  unfold ofUnix instant
  rw [ofUnix_sum hlo (by omega), if_pos h]

/-- Past the end of 64 bits, an instant is taken for one long before the first year. -/
theorem ofUnix_wrapped {seconds : Int} (hhi : seconds < 2 ^ 63)
    (h : 2 ^ 63 ≤ seconds + 62135596800) : ofUnix (Int64.ofInt seconds) ≤ -2 ^ 63 := by
  unfold ofUnix
  rw [ofUnix_sum (by omega) hhi, if_neg (by omega)]
  have hbound (n : Int) (hn : n < 2 ^ 63) :
      (n + 62135596800 - 2 ^ 64) * 1000000000 ≤ -2 ^ 63 := by
    omega
  exact hbound seconds hhi

/-- Such an instant is far ahead of every clock. -/
theorem ahead_of_wrapped {seconds : Int} {now : Time} (hnow : now.InCalendar)
    (h : 2 ^ 63 ≤ seconds + 62135596800) : now + 2 ^ 63 ≤ instant seconds := by
  have hbound (n s : Int) (hn : n < 315537897600000000000) (hs : 2 ^ 63 ≤ s + 62135596800) :
      n + 2 ^ 63 ≤ (s + 62135596800) * 1000000000 := by
    omega
  exact hbound now seconds hnow.2 h

end Time

namespace Notify

/-- The receiver of the smoke test. All it keeps is which events it has accepted. -/
structure Receiver where
  secret : Bytes
  window : Duration
  seen : List String

namespace Receiver

def newReceiver (secret : Bytes) (window : Duration) : Receiver := ⟨secret, window, []⟩

/-- `strconv.ParseInt` of the bytes of a header. -/
def parseSeconds (raw : Bytes) : Option Int := Provider.parseInt64 (ofChars (raw.map latin))

/-- The sign is dropped in 64 bits. -/
def magnitude (delta : Duration) : Duration := if delta < 0 then -delta else delta

def validTimestamp (r : Receiver) (now : Time) (raw : Bytes) : Time × Bool :=
  match parseSeconds raw with
  | none => (0, false)
  | some seconds =>
    if r.window ≤ 0 then (0, false)
    else
      let timestamp := Time.ofUnix (Int64.ofInt seconds)
      let delta := magnitude (Time.sub now timestamp)
      (timestamp, delta ≤ r.window)

/-- The smallest duration has no opposite, and stays negative. -/
theorem magnitude_toInt (delta : Duration) :
    (magnitude delta).toInt =
      if delta.toInt = -2 ^ 63 then -2 ^ 63 else |delta.toInt| := by
  have hlo := delta.le_toInt
  have hhi := delta.toInt_lt
  have hneg : delta < 0 ↔ delta.toInt < 0 := Int64.lt_iff_toInt_lt
  unfold magnitude
  by_cases h : delta < 0
  · have hnegative := hneg.mp h
    rw [if_pos h, Int64.toInt_neg, abs_of_neg hnegative]
    unfold Int.bmod
    dsimp only
    split_ifs <;> omega
  · have hnonneg := not_lt.mp (mt hneg.mpr h)
    rw [if_neg h, abs_of_nonneg hnonneg, if_neg (by omega)]

theorem magnitude_sub_le_iff {window : Duration} (h : 0 < window) (now t : Time) :
    magnitude (Time.sub now t) ≤ window ↔
      |now - t| ≤ window.toInt ∨ now - t ≤ -2 ^ 63 ∨
        (window = Int64.maxValue ∧ 2 ^ 63 ≤ now - t) := by
  have hpos : 0 < window.toInt := Int64.lt_iff_toInt_lt.mp h
  have hwindow := window.toInt_lt
  have hmax : window = Int64.maxValue ↔ window.toInt = 2 ^ 63 - 1 := by
    rw [← Int64.toInt_inj, Int64.toInt_maxValue]
  rw [Int64.le_iff_toInt_le, magnitude_toInt, Time.sub_toInt, hmax]
  generalize now - t = d
  generalize window.toInt = w at *
  have hcases (d w : Int) (hpos : 0 < w) (hwindow : w < 2 ^ 63) :
      (if max (-2 ^ 63) (min (2 ^ 63 - 1) d) = -2 ^ 63 then -2 ^ 63
        else |max (-2 ^ 63) (min (2 ^ 63 - 1) d)|) ≤ w ↔
      |d| ≤ w ∨ d ≤ -2 ^ 63 ∨ w = 2 ^ 63 - 1 ∧ 2 ^ 63 ≤ d := by
    rw [abs_eq_max_neg, abs_eq_max_neg]
    split_ifs <;> omega
  exact hcases d w hpos hwindow

/-- The header tells an instant within the window. -/
def Within (r : Receiver) (now : Time) (raw : Bytes) : Prop :=
  ∃ seconds, parseSeconds raw = some seconds ∧ |now - Time.instant seconds| ≤ r.window.toInt

/-- The header tells an instant whose distance is no duration, on a side where 64 bits do not
show it: ahead of the clock at every window, and behind it at the largest one. -/
def Overflows (r : Receiver) (now : Time) (raw : Bytes) : Prop :=
  ∃ seconds, parseSeconds raw = some seconds ∧
    ((now + 2 ^ 63 ≤ Time.instant seconds ∧ seconds + 62135596800 < 2 ^ 63) ∨
      (r.window = Int64.maxValue ∧
        (Time.instant seconds + 2 ^ 63 ≤ now ∨ 2 ^ 63 ≤ seconds + 62135596800)))

theorem not_near {window : Duration} {d : Int} (h : d ≤ -2 ^ 63 ∨ 2 ^ 63 ≤ d) :
    ¬|d| ≤ window.toInt := by
  have hmax := window.toInt_lt
  rw [abs_le]
  omega

theorem accepts_iff {r : Receiver} (hwindow : 0 < r.window) {now : Time} (hnow : now.InCalendar)
    (raw : Bytes) :
    (r.validTimestamp now raw).2 = true ↔ r.Within now raw ∨ r.Overflows now raw := by
  unfold validTimestamp Within Overflows
  cases hparse : parseSeconds raw with
  | none => simp
  | some seconds =>
    obtain ⟨hlo, hhi⟩ := Provider.parseInt64_bounds hparse
    simp only [Int64.not_le.mpr hwindow, if_false, decide_eq_true_eq, Option.some.injEq,
      exists_eq_left', magnitude_sub_le_iff hwindow]
    by_cases hsum : seconds + 62135596800 < 2 ^ 63
    · rw [Time.ofUnix_eq hlo hsum]
      generalize Time.instant seconds = t
      have hbehind : 2 ^ 63 ≤ now - t ↔ t + 2 ^ 63 ≤ now := by
        constructor <;> intro h <;> linarith
      have hahead : now - t ≤ -2 ^ 63 ↔ now + 2 ^ 63 ≤ t := by
        constructor <;> intro h <;> linarith
      simp only [hbehind, hahead, hsum, and_true, not_le.mpr hsum, or_false]
    · -- taken for an instant far behind, so that only the largest window accepts it
      have hwrapped := Time.ofUnix_wrapped hhi (not_lt.mp hsum)
      have hahead := Time.ahead_of_wrapped hnow (not_lt.mp hsum)
      have hfar : 2 ^ 63 ≤ now - Time.ofUnix (Int64.ofInt seconds) := by
        have := hnow.1
        linarith
      have hnotbehind : ¬now - Time.ofUnix (Int64.ofInt seconds) ≤ -2 ^ 63 := by linarith
      have hdistance : now - Time.instant seconds ≤ -2 ^ 63 := by linarith
      simp only [not_near (.inr hfar), not_near (.inl hdistance), hnotbehind, hfar, hsum,
        not_lt.mp hsum, false_or, and_false, and_true, or_true]

theorem not_within {r : Receiver} {now : Time} (hnow : now.InCalendar) {raw : Bytes}
    (h : r.Overflows now raw) : ¬r.Within now raw := by
  rintro ⟨seconds, hparse, hnear⟩
  obtain ⟨_, hsame, hover⟩ := h
  cases hparse.symm.trans hsame
  refine not_near ?_ hnear
  rcases hover with ⟨hahead, -⟩ | ⟨-, hbehind | hwrapped⟩
  · exact .inl (by linarith)
  · exact .inr (by linarith)
  · have hahead := Time.ahead_of_wrapped hnow hwrapped
    exact .inl (by linarith)

/-- The window is exact but for the instants that overflow. -/
theorem window_exact_iff (r : Receiver) (hwindow : 0 < r.window) (now : Time)
    (hnow : now.InCalendar) (raw : Bytes) :
    ((r.validTimestamp now raw).2 = true ↔ r.Within now raw) ↔ ¬r.Overflows now raw := by
  rw [accepts_iff hwindow hnow]
  constructor
  · intro h hover
    exact not_within hnow hover (h.mp (.inr hover))
  · intro hnot
    exact or_iff_left hnot

section Example

/-- Four in the afternoon on a day in the year 2024, which is 1709222400 in Unix seconds. -/
def receivedAt : Time := 63844819200000000000

def fiveMinutes : Receiver := newReceiver (ascii ['k']) 300000000000

def secondsHeader (seconds : Int) : Bytes := ascii (encodeInt seconds)

theorem fiveMinutes_exact :
    0 < fiveMinutes.window ∧ receivedAt.InCalendar ∧
      (((fiveMinutes.validTimestamp receivedAt (secondsHeader 1709222700)).2 = true ↔
          fiveMinutes.Within receivedAt (secondsHeader 1709222700)) ↔
        ¬fiveMinutes.Overflows receivedAt (secondsHeader 1709222700)) :=
  have hwindow : 0 < fiveMinutes.window := by decide
  have hnow : receivedAt.InCalendar := ⟨by decide, by decide⟩
  ⟨hwindow, hnow, window_exact_iff fiveMinutes hwindow receivedAt hnow _⟩

/-- A header that is three hundred years ahead passes a window of five minutes. -/
theorem distantHeader_accepted :
    parseSeconds (secondsHeader 11176308000) = some 11176308000 ∧
      300000000000 < |receivedAt - Time.instant 11176308000| ∧
      fiveMinutes.window.toInt = 300000000000 ∧
      (fiveMinutes.validTimestamp receivedAt (secondsHeader 11176308000)).2 = true := by
  decide +kernel

end Example

/-- A request as the handler reads it. Reading the body may fail at its end. -/
structure Request where
  method : String
  contentType : Bytes
  timestamp : Bytes
  signature : Bytes
  eventID : Bytes
  body : Bytes
  bodyFails : Bool := false

structure Answer where
  status : Nat
  text : String := ""
  deriving DecidableEq

/-- What the standard library makes of bytes, taken as given. -/
structure Library where
  /-- HMAC-SHA256. -/
  mac : Bytes → Bytes → Vector UInt8 32
  /-- The type that `mime.ParseMediaType` finds. -/
  mediaType : Bytes → Option String
  /-- `specversion` and `id` of what `json.Unmarshal` decodes. -/
  unmarshal : Bytes → Option (String × String)

def maxRequestBytes : Nat := 1048576

variable (L : Library)

/-- The request is signed for its body and for the second in its header. -/
structure Authentic (r : Receiver) (now : Time) (req : Request) : Prop where
  timely : (r.validTimestamp now req.timestamp).2 = true
  signed : ∃ seconds, parseSeconds req.timestamp = some seconds ∧
    req.signature = ascii ['v', '1', '='] ++
      sign L.mac r.secret (Time.ofUnix (Int64.ofInt seconds)) req.body

/-- It carries an event, which its headers and its body name alike. -/
structure Carries (r : Receiver) (now : Time) (req : Request) (id : String) : Prop
    extends Authentic L r now req where
  event : L.unmarshal req.body = some ("1.0", id)
  visible : isBlank id = false
  named : req.eventID = utf8Bytes id

/-- What a request can lead to. -/
inductive Served (r : Receiver) (now : Time) (req : Request) : Answer → Receiver → Prop
  | refused {status : Nat} {text : String} (h : 400 ≤ status) : Served r now req ⟨status, text⟩ r
  | repeated {id : String} (hcarries : Carries L r now req id) (hseen : id ∈ r.seen) :
      Served r now req ⟨208, ""⟩ r
  | accepted {id : String} (hcarries : Carries L r now req id) (hfresh : id ∉ r.seen) :
      Served r now req ⟨204, ""⟩ { r with seen := id :: r.seen }

end Receiver

end Notify

end RuleRaven
