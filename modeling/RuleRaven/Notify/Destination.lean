import RuleRaven.Notify.Webhook

namespace RuleRaven.Notify.Webhook

open Framework Prog

section Admission

variable (L : Library) (endpoint : URL)

/-- A connection is admitted to a safe address that a lookup of the host of the endpoint has
returned, at the port of an address of that host which the transport has asked for. -/
structure Admitted (past : List NetEvent) (target : Bytes) (port : List Char) : Prop where
  safe : unsafeIP (some target) = false
  answered : ∃ addresses : List IP,
    (⟨.lookup endpoint.hostname, some addresses⟩ : NetEvent) ∈ past ∧
      ∃ ip ∈ addresses, unsafeIP ip = false ∧ ip.to16 = some target
  asked : ∃ addresses : List String, (⟨.dials endpoint.text, addresses⟩ : NetEvent) ∈ past ∧
    ∃ address ∈ addresses, ∃ addressHost,
      splitHostPort (chars address) = some (addressHost, port) ∧
        sameHost L addressHost endpoint.hostname = true

variable (w : Webhook) (event : Envelope)

/-- The request of the event, signed at the time that the clock has told. -/
def Signed (past : List NetEvent) (request : Request) : Prop :=
  ∃ (timestamp : Time) (body : Bytes), (⟨.now, timestamp⟩ : NetEvent) ∈ past ∧
    L.marshal event = some body ∧
    request = ⟨w.endpoint.text, deliveryHeaders L w.secret event timestamp body, body⟩

/-- What a notifier may do, by what it has learned: it looks up one host, it sends the event to
one URL, and it connects where that is admitted. -/
def Contained (past : List NetEvent) : NetOp → Prop
  | .ctxErr => True
  | .now => True
  | .lookup host => host = w.endpoint.hostname
  | .dials url => url = w.endpoint.text
  | .exchange request => Signed L w event past request
  | .resolve _ => False
  | .connect target port => Admitted L w.endpoint past target port
  | .foreign _ => False

end Admission

/-- An address is as safe as the sixteen bytes that it is connected by. -/
theorem unsafeIP_to16 {ip : IP} {target : Bytes} (h : ip.to16 = some target) :
    unsafeIP (some target) = unsafeIP ip := by
  have hnil : ip.isNone = false := by
    cases ip with
    | none => cases h
    | some b => rfl
  have hzero : (IP.mapped ++ [0, 0, 0, 0]).length = 16 := rfl
  unfold unsafeIP IP.isUnspecified IP.isLoopback IP.isPrivate IP.isLinkLocalUnicast
    IP.isLinkLocalMulticast IP.isMulticast
  rw [hnil, IP.equal_to16 h hzero, IP.equal_to16 h List.length_replicate, IP.to4_to16 h,
    IP.equal_to16 h rfl]
  simp only [IP.classed_to16 h, Option.isNone_some]

/-- An address is dialed as itself, and bytes of another length lead nowhere. -/
theorem dialer_text (ip : IP) {port : List Char} (hport : ':' ∉ port ∧ '[' ∉ port ∧ ']' ∉ port) :
    dialer (joinHostPort ip.text port) =
      (ip.to16.elim (pure false) fun target => connectAny port [target]) := by
  unfold dialer
  rw [splitHostPort_joinHostPort (IP.text_unbracketed ip) hport]
  dsimp only
  by_cases hwell : ip.WellFormed
  · obtain ⟨target, hto16⟩ := IP.to16_of_wellFormed hwell
    have hparse := (IP.parseAddr_text hwell).trans hto16
    have hne : ip.text ≠ [] := by
      intro hnil
      rw [hnil] at hparse
      cases hparse
    rw [if_neg hne, hparse, hto16]
    rfl
  · obtain ⟨hparse, hname, hto16⟩ := IP.text_of_malformed hwell
    have hne : ip.text ≠ [] := by
      intro hnil
      rw [hnil] at hname
      cases hname
    rw [if_neg hne, hparse, hname, hto16]
    rfl

section Connections

variable {L : Library} {w : Webhook} {event : Envelope} {past : List NetEvent} {port : List Char}

theorem Admitted.later {target : Bytes} (h : Admitted L w.endpoint past target port)
    (more : List NetEvent) : Admitted L w.endpoint (past ++ more) target port := by
  obtain ⟨hsafe, ⟨addresses, hlookup, hip⟩, ⟨urls, hdials, haddress⟩⟩ := h
  exact ⟨hsafe, ⟨addresses, List.mem_append_left _ hlookup, hip⟩,
    ⟨urls, List.mem_append_left _ hdials, haddress⟩⟩

theorem heeds_dialer {ip : IP} (hport : ':' ∉ port ∧ '[' ∉ port ∧ ']' ∉ port)
    (h : ∀ target, ip.to16 = some target → Admitted L w.endpoint past target port) :
    Heeds (Contained L w event) past (dialer (joinHostPort ip.text port)) := by
  rw [dialer_text ip hport]
  cases hto16 : ip.to16 with
  | none => exact heeds_ret
  | some target =>
    refine heeds_call (h target hto16) fun reply => ?_
    cases reply with
    | false => exact heeds_ret
    | true => exact heeds_ret

theorem heeds_dialAny {addresses : List IP} (hport : ':' ∉ port ∧ '[' ∉ port ∧ ']' ∉ port)
    (h : ∀ ip ∈ addresses, unsafeIP ip = false → ∀ target, ip.to16 = some target →
      Admitted L w.endpoint past target port) :
    Heeds (Contained L w event) past (dialAny false port addresses) := by
  induction addresses generalizing past with
  | nil => exact heeds_ret
  | cons ip addresses ih =>
    have hrest : ∀ other ∈ addresses, unsafeIP other = false → ∀ target,
        other.to16 = some target → Admitted L w.endpoint past target port :=
      fun other hother => h other (List.mem_cons_of_mem _ hother)
    unfold dialAny
    split_ifs with hdanger
    · exact ih hrest
    · have hsafe : unsafeIP ip = false := by simpa using hdanger
      refine heeds_bind (heeds_dialer hport (h ip (by simp) hsafe)) fun t opened _ => ?_
      cases opened with
      | true => exact heeds_ret
      | false =>
        exact ih fun other hother hsafe target hto16 =>
          (hrest other hother hsafe target hto16).later t

theorem heeds_dialContext {asked : List String} {address : String}
    (hdials : (⟨.dials w.endpoint.text, asked⟩ : NetEvent) ∈ past) (haddress : address ∈ asked) :
    Heeds (Contained L w event) past (dialContext L w.endpoint.hostname false address) := by
  unfold dialContext
  cases hsplit : splitHostPort (chars address) with
  | none => exact heeds_ret
  | some parts =>
    obtain ⟨addressHost, port⟩ := parts
    dsimp only
    split_ifs with hhost
    · exact heeds_ret
    · refine heeds_call rfl fun reply => ?_
      cases reply with
      | none => exact heeds_ret
      | some addresses =>
        rw [ret_bind]
        dsimp only
        split_ifs with hempty
        · exact heeds_ret
        · refine heeds_dialAny (splitHostPort_port hsplit) fun ip hip hsafe target hto16 => ?_
          exact ⟨(unsafeIP_to16 hto16).trans hsafe, ⟨addresses, by simp, ip, hip, hsafe, hto16⟩,
            ⟨asked, by simp [hdials], address, haddress, addressHost, hsplit, by simpa using hhost⟩⟩

theorem heeds_dialEach {asked : List String}
    (hdials : (⟨.dials w.endpoint.text, asked⟩ : NetEvent) ∈ past)
    {addresses : List String} (hsub : ∀ address ∈ addresses, address ∈ asked) :
    Heeds (Contained L w event) past (dialEach L w.endpoint.hostname false addresses) := by
  induction addresses generalizing past with
  | nil => exact heeds_ret
  | cons address addresses ih =>
    refine heeds_bind (heeds_dialContext hdials (hsub address (by simp))) fun t _ _ => ?_
    exact ih (List.mem_append_left _ hdials) fun other hother =>
      hsub other (List.mem_cons_of_mem _ hother)

theorem Signed.later {request : Request} (h : Signed L w event past request)
    (more : List NetEvent) : Signed L w event (past ++ more) request := by
  obtain ⟨timestamp, body, hnow, hbody⟩ := h
  exact ⟨timestamp, body, List.mem_append_left _ hnow, hbody⟩

theorem heeds_roundTrip {request : Request} (hsigned : Signed L w event past request) :
    Heeds (Contained L w event) past
      (roundTrip L request (.safe w.endpoint.hostname false)) := by
  have hurl : request.url = w.endpoint.text := by
    obtain ⟨timestamp, body, -, -, rfl⟩ := hsigned
    rfl
  refine heeds_call hurl fun asked => ?_
  have hdials :
      (⟨.dials w.endpoint.text, asked⟩ : NetEvent) ∈ past ++ [⟨.dials request.url, asked⟩] := by
    rw [hurl]
    exact List.mem_append_right _ (List.mem_singleton_self _)
  rw [ret_bind]
  refine heeds_bind (heeds_dialEach hdials fun _ h => h) fun t _ _ => ?_
  exact heeds_call ((hsigned.later _).later t) fun _ => heeds_ret

/-- One round trip is all, since redirects are rejected. -/
theorem heeds_send {request : Request} (hsigned : Signed L w event past request) :
    Heeds (Contained L w event) past
      (HTTPClient.send L request (safeHTTPClient w.endpoint.hostname false)) := by
  refine heeds_bind (heeds_roundTrip hsigned) fun t reply _ => ?_
  cases reply with
  | none => exact heeds_ret
  | some response => exact heeds_ret

end Connections

section Delivery

variable {L : Library} {w : Webhook} {event : Envelope} {past : List NetEvent}

theorem heeds_validateHost {allowPrivate : Bool} :
    Heeds (Contained L w event) past (validateHost w.endpoint.hostname allowPrivate) := by
  unfold validateHost
  split_ifs with hblank
  · exact heeds_ret
  · refine heeds_call rfl fun reply => ?_
    cases reply with
    | none => exact heeds_ret
    | some addresses =>
      rw [ret_bind]
      dsimp only
      split_ifs
      · exact heeds_ret
      · exact heeds_ret
      · exact heeds_ret

theorem heeds_post {body : Bytes} (hmarshal : L.marshal event = some body)
    (hclient : w.client = safeHTTPClient w.endpoint.hostname false) :
    Heeds (Contained L w event) past (post L w event body) := by
  refine heeds_call trivial fun timestamp => ?_
  rw [ret_bind]
  split_ifs with hrequestable
  · exact heeds_ret
  · rw [hclient]
    have hsigned : Signed L w event (past ++ [⟨.now, timestamp⟩])
        ⟨w.endpoint.text, deliveryHeaders L w.secret event timestamp body, body⟩ :=
      ⟨timestamp, body, List.mem_append_right _ (List.mem_singleton_self _), hmarshal, rfl⟩
    refine heeds_bind (heeds_send hsigned) fun t reply _ => ?_
    cases reply with
    | some response => exact heeds_ret
    | none =>
      refine heeds_call trivial fun ctxErr => ?_
      cases ctxErr with
      | some err => exact heeds_ret
      | none => exact heeds_ret

theorem heeds_deliver (hclient : w.client = safeHTTPClient w.endpoint.hostname false) :
    Heeds (Contained L w event) past (deliver L w event) := by
  refine heeds_call trivial fun ctxErr => ?_
  cases ctxErr with
  | some err => exact heeds_ret
  | none =>
    rw [ret_bind]
    dsimp only
    split_ifs with hinvalid
    · exact heeds_ret
    · refine heeds_bind heeds_validateHost fun t valid _ => ?_
      cases valid with
      | error err => exact heeds_ret
      | ok _ =>
        dsimp only
        cases hmarshal : L.marshal event with
        | none => exact heeds_ret
        | some body => exact heeds_post hmarshal hclient

/-- What the first lookup of a run was answered. -/
def ownLookup (t : List NetEvent) : Option (Option (List IP)) :=
  t.findSome? fun event =>
    match event with
    | ⟨.lookup _, reply⟩ => some reply
    | _ => none

/-- `validateHost` looks up the host, if there is one, and refuses an unsafe address. -/
theorem validateHost_does {host : String} {t : List NetEvent} {outcome : Except String Unit}
    (h : Does (validateHost host false) t outcome) :
    (t = [] ∧ ∃ err, outcome = .error err) ∨
      ∃ reply : Option (List IP), t = [⟨.lookup host, reply⟩] ∧
        ∀ addresses, reply = some addresses → (∃ ip ∈ addresses, unsafeIP ip = true) →
          ∃ err, outcome = .error err := by
  unfold validateHost at h
  split_ifs at h with hblank
  · exact .inl ⟨h.1, _, h.2⟩
  · obtain ⟨reply, rest, rfl, h⟩ := h
    dsimp only [ret_bind] at h
    cases reply with
    | none =>
      obtain ⟨rfl, -⟩ := h
      exact .inr ⟨none, rfl, fun _ h => by cases h⟩
    | some addresses =>
      dsimp only at h
      split_ifs at h with hempty hdanger
      · exact .inr ⟨_, congrArg _ h.1, fun _ _ _ => ⟨_, h.2⟩⟩
      · exact .inr ⟨_, congrArg _ h.1, fun _ _ _ => ⟨_, h.2⟩⟩
      · refine .inr ⟨_, congrArg _ h.1, ?_⟩
        rintro _ ⟨⟩ ⟨ip, hip, hbad⟩
        exact absurd ⟨rfl, List.any_eq_true.mpr ⟨ip, hip, hbad⟩⟩ hdanger

/-- A delivery whose own lookup returns an unsafe address fails, and connects nowhere. -/
theorem deliver_refused (hprivate : w.allowPrivate = false) {t : List NetEvent}
    {outcome : Except DeliveryError Unit} (h : Does (deliver L w event) t outcome)
    {addresses : List IP} (hown : ownLookup t = some (some addresses))
    (hdanger : ∃ ip ∈ addresses, unsafeIP ip = true) :
    outcome = .error (failure "unsafe_destination" false) ∧
      ∀ e ∈ t, ∀ target port, e.1 ≠ .connect target port := by
  obtain ⟨ctxErr, rest, rfl, h⟩ := h
  dsimp only [ret_bind] at h
  cases ctxErr with
  | some err =>
    obtain ⟨rfl, -⟩ := h
    cases hown
  | none =>
    dsimp only at h
    split_ifs at h with hinvalid
    · obtain ⟨rfl, -⟩ := h
      cases hown
    · obtain ⟨front, back, valid, rfl, hvalid, hback⟩ := does_bind.mp h
      rw [hprivate] at hvalid
      rcases validateHost_does hvalid with ⟨rfl, err, rfl⟩ | ⟨reply, rfl, hrefused⟩
      · obtain ⟨rfl, -⟩ := hback
        cases hown
      · have hreply : reply = some addresses := Option.some.inj hown
        obtain ⟨err, rfl⟩ := hrefused addresses hreply hdanger
        obtain ⟨rfl, rfl⟩ := hback
        refine ⟨rfl, ?_⟩
        intro e he target port
        rcases List.mem_cons.mp he with rfl | he
        · nofun
        · cases List.mem_singleton.mp he
          nofun

theorem checkConfig_ok {config : FactoryConfig} {endpoint : URL}
    (h : checkConfig L config = .ok endpoint) : L.parseURL config.endpoint = some endpoint := by
  unfold checkConfig at h
  simp only [ite_error_eq_ok] at h
  obtain ⟨-, -, -, -, -, h⟩ := h
  cases hparse : L.parseURL config.endpoint with
  | none =>
    rw [hparse] at h
    cases h
  | some parsed =>
    rw [hparse] at h
    simp only [ite_error_eq_ok] at h
    cases h.2.2.2.2
    rfl

theorem chooseClient_ok {endpoint : URL} {config : FactoryConfig} {client : HTTPClient}
    (hprivate : config.allowPrivateNetwork = false)
    (h : chooseClient endpoint config = .ok client) :
    client = safeHTTPClient endpoint.hostname false := by
  unfold chooseClient at h
  cases hclient : config.httpClient with
  | none =>
    rw [hclient, hprivate] at h
    cases h
    rfl
  | some given =>
    rw [hclient] at h
    dsimp only at h
    rw [if_pos hprivate] at h
    cases h

/-- What `New` returns has its configuration, an endpoint that passes the checks and a client that
was chosen for it. -/
theorem new_does {config : FactoryConfig} {t : List NetEvent}
    (h : Does (new L config) t (.ok w)) :
    ∃ endpoint client, checkConfig L config = .ok endpoint ∧
      chooseClient endpoint config = .ok client ∧
      w = { name := config.destinationID, endpoint := endpoint, secret := config.secret,
            timeout := config.timeout, maxResponseBytes := config.maxResponseBytes,
            maxRetryAfter := config.maxRetryAfter, allowPrivate := config.allowPrivateNetwork,
            client := client } := by
  unfold new at h
  cases hcheck : checkConfig L config with
  | error err =>
    rw [hcheck] at h
    cases h.2
  | ok endpoint =>
    rw [hcheck] at h
    obtain ⟨front, back, valid, rfl, -, h⟩ := does_bind.mp h
    cases valid with
    | error err => cases h.2
    | ok _ =>
      dsimp only at h
      cases hchoose : chooseClient endpoint config with
      | error err =>
        rw [hchoose] at h
        cases h.2
      | ok client =>
        rw [hchoose] at h
        cases h.2
        exact ⟨endpoint, client, rfl, hchoose, rfl⟩

/-- Without access to private networks it has the client of this package. -/
theorem new_guarded {config : FactoryConfig} (hprivate : config.allowPrivateNetwork = false)
    {t : List NetEvent} (h : Does (new L config) t (.ok w)) :
    L.parseURL config.endpoint = some w.endpoint ∧ w.allowPrivate = false ∧
      w.client = safeHTTPClient w.endpoint.hostname false := by
  obtain ⟨endpoint, client, hcheck, hchoose, rfl⟩ := new_does h
  exact ⟨checkConfig_ok hcheck, hprivate, chooseClient_ok hprivate hchoose⟩

/-- Whatever the lookups return, a delivery connects only to safe addresses that a lookup of the
endpoint's host has returned, and it fails if its own lookup returns another. -/
theorem delivery_contained (L : Library) (config : FactoryConfig)
    (hprivate : config.allowPrivateNetwork = false) {built : List NetEvent} {w : Webhook}
    (hnew : Does (new L config) built (.ok w)) (event : Envelope) {t : List NetEvent}
    {outcome : Except DeliveryError Unit} (h : Does (deliver L w event) t outcome) :
    L.parseURL config.endpoint = some w.endpoint ∧
      AtEach (fun past e _ => Contained L w event past e.1) t ∧
      ∀ addresses, ownLookup t = some (some addresses) →
        (∃ ip ∈ addresses, unsafeIP ip = true) →
        outcome = .error (failure "unsafe_destination" false) := by
  obtain ⟨hparse, hallow, hclient⟩ := new_guarded hprivate hnew
  have hheeds : Heeds (Contained L w event) [] (deliver L w event) := heeds_deliver hclient
  refine ⟨hparse, hheeds.atEach h, ?_⟩
  intro addresses hown hdanger
  exact (deliver_refused hallow h hown hdanger).1

end Delivery

section Example

/-- A library for which texts are URLs of one host. -/
def plainLibrary : Library where
  mac _ _ := Vector.replicate 32 0
  marshal _ := some []
  parseURL text := some ⟨"https", "hooks.example.com", "hooks.example.com", false, "", text⟩
  requestable _ := true
  equalFold a b := a == b
  parseTime _ := none

def plainConfig : FactoryConfig where
  destinationID := "hook"
  endpoint := "https://hooks.example.com/in"
  secret := [1]
  timeout := 10000000000
  maxResponseBytes := 4096
  maxRetryAfter := 60000000000

def plainWebhook : Webhook where
  name := "hook"
  endpoint := ⟨"https", "hooks.example.com", "hooks.example.com", false, "",
    "https://hooks.example.com/in"⟩
  secret := [1]
  timeout := 10000000000
  maxResponseBytes := 4096
  maxRetryAfter := 60000000000
  allowPrivate := false
  client := safeHTTPClient "hooks.example.com" false

def publicIP : IP := some [203, 0, 113, 9]

/-- The name is bound to a public address when it is validated, and to nothing and to the
machine itself as well when it is dialed. A redirect to another host is dialed, too. -/
def rebinding : (op : NetOp) → Nat → NetOp.Reply op × Nat
  | .ctxErr, n => (none, n)
  | .now, n => (0, n)
  | .lookup _, 0 => (some [publicIP], 1)
  | .lookup _, n => (some [none, some [127, 0, 0, 1], publicIP], n)
  | .dials _, n => (["internal:80", "hooks.example.com:443"], n)
  | .exchange _, n => (some { statusCode := 302, location := some "http://internal/" }, n)
  | .resolve _, n => ([], n)
  | .connect _ _, n => (true, n)
  | .foreign _, n => (none, n)

def plainEvent : Envelope :=
  { id := "e", source := "s", type := .opened, time := 1, data := Json.raw .null }

def rebindingTrace : List NetEvent :=
  trace rebinding (deliver plainLibrary plainWebhook plainEvent) 0

/-- The connections that a run asks for. -/
def connections (t : List NetEvent) : List (Bytes × List Char) :=
  t.filterMap fun event =>
    match event.1 with
    | .connect target port => some (target, port)
    | _ => none

theorem rebinding_contained :
    plainConfig.allowPrivateNetwork = false ∧
      connections rebindingTrace = [(IP.mapped ++ [203, 0, 113, 9], "443".toList)] ∧
      AtEach (fun past e _ => Contained plainLibrary plainWebhook plainEvent past e.1)
        rebindingTrace := by
  have hnew : Does (new plainLibrary plainConfig) _ (.ok plainWebhook) :=
    does_trace rebinding (new plainLibrary plainConfig) 0
  exact ⟨rfl, by decide +kernel, (delivery_contained plainLibrary plainConfig rfl hnew plainEvent
    (does_trace rebinding _ 0)).2.1⟩

end Example

end RuleRaven.Notify.Webhook
