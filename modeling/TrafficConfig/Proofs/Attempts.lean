import TrafficConfig.Client.Exchange
import TrafficConfig.Proofs.Explanations

/-!
# Attempts of a client

A client repeats a request as long as the outcome may be another one the next time:

* **`Exchange.Passes`** — an outcome that may pass by itself; **`Exchange.Brings`** — what
  one outcome means for who asked, be it the last one or not;
* **`Call.Answers`** — what the outcome of its request means for each kind of call;
* **`scripted`** — a library that brings the outcomes of a script, whatever is asked, and
  notes the requests;
* **`exists_last_attempt`** — an exchange with a script ends with the first outcome that does
  not pass by itself, or when the patience does.

The main result is **`Client.last_answer_decides`**: the request of a call is sent until
then, and the outcome of the last attempt alone decides what the call is answered with.
-/

namespace TrafficConfig

/-! ## Outcomes -/

namespace Exchange

/-- An outcome that may pass by itself: there were too many requests, the server has a fault,
    did not answer in time, or was not reached. -/
def Passes : Exchange → Prop
  | .reply status _ => status = 429 ∨ 500 ≤ status ∧ status < 600
  | .timedOut => True
  | .unreachable => True
  | .broken _ => False

/-- A status says that the request was carried out. -/
def IsSuccess (status : Nat) : Prop := 200 ≤ status ∧ status < 300

/-- What one outcome means for who asked. -/
inductive Brings (timeout : Nat) : Exchange → Except ApiError String → Prop
  | success {status : Nat} {body : String} (h : IsSuccess status) :
      Brings timeout (.reply status (some body)) (.ok body)
  | cutOff {status : Nat} (h : IsSuccess status) :
      Brings timeout (.reply status none)
        (.error (.request "the body of the answer ends too early"))
  | refused {body? : Option String} : Brings timeout (.reply 401 body?) (.error .auth)
  | explained {status : Nat} {body : String} {fault : RemoteFault} (h : ¬IsSuccess status)
      (hauth : status ≠ 401) (hbody : RemoteFault.Explains body fault) :
      Brings timeout (.reply status (some body))
        (.error (.api status fault.text (some fault)))
  | unexplained {status : Nat} {body : String} (h : ¬IsSuccess status)
      (hauth : status ≠ 401) (hbody : ∀ fault, ¬RemoteFault.Explains body fault) :
      Brings timeout (.reply status (some body)) (.error (.api status body none))
  | unreadable {status : Nat} (h : ¬IsSuccess status) (hauth : status ≠ 401) :
      Brings timeout (.reply status none) (.error (.api status "Unknown error" none))
  | timedOut : Brings timeout .timedOut (.error (.timeout timeout))
  | unreachable : Brings timeout .unreachable (.error .unavailable)
  | broken {reason : String} : Brings timeout (.broken reason) (.error (.request reason))

/-- An outcome decides what it brings. -/
theorem Brings.unique {timeout : Nat} {e : Exchange} {r r' : Except ApiError String}
    (h : e.Brings timeout r) (h' : e.Brings timeout r') : r = r' := by
  have hauth : ¬IsSuccess 401 := fun h => absurd h.2 (by decide)
  cases h <;> cases h' <;> try first | rfl | contradiction
  case explained.explained hbody _ _ _ hbody' =>
    rw [hbody.unique hbody']
  case explained.unexplained hbody _ _ hnone => exact absurd hbody (hnone _)
  case unexplained.explained hnone _ _ _ hbody => exact absurd hbody (hnone _)

private theorem brings_ofReply {timeout status : Nat} (h : ¬IsSuccess status)
    (hauth : status ≠ 401) (body? : Option String) :
    (Exchange.reply status body?).Brings timeout (.error (.ofReply status body?)) := by
  cases body? with
  | none =>
      have hnone : (RemoteFault.ofText? "Unknown error").isNone = true := by decide +kernel
      rw [ApiError.ofReply, Option.getD_none, Option.isNone_iff_eq_none.mp hnone]
      exact .unreadable h hauth
  | some body =>
      rw [ApiError.ofReply, Option.getD_some]
      cases hbody : RemoteFault.ofText? body with
      | none =>
          refine .unexplained h hauth fun fault hfault => ?_
          rw [RemoteFault.ofText?_eq_some_iff.mpr hfault] at hbody
          exact nomatch hbody
      | some fault => exact .explained h hauth (RemoteFault.ofText?_eq_some_iff.mp hbody)

private theorem judge_failure (timeout : Nat) {status : Nat} (h : ¬IsSuccess status)
    (hauth : status ≠ 401) (body? : Option String) :
    judge timeout (.reply status body?) =
      if status = 429 ∨ 500 ≤ status ∧ status < 600 then .again (.ofReply status body?)
      else .settled (.error (.ofReply status body?)) := by
  have hno : ¬(200 ≤ status ∧ status < 300) := h
  rw [judge.eq_def]
  simp only [Bool.or_eq_true, Bool.and_eq_true, decide_eq_true_iff, if_neg hno, if_neg hauth]

/-- **What is worth another attempt passes by itself**, all else is the last word. -/
theorem judge_cases (timeout : Nat) (e : Exchange) :
    (e.Passes ∧ ∃ reason, judge timeout e = .again reason ∧
      e.Brings timeout (.error reason)) ∨
    (¬e.Passes ∧ ∃ result, judge timeout e = .settled result ∧ e.Brings timeout result) := by
  cases e with
  | timedOut => exact .inl ⟨trivial, _, rfl, .timedOut⟩
  | unreachable => exact .inl ⟨trivial, _, rfl, .unreachable⟩
  | broken reason => exact .inr ⟨id, _, rfl, .broken⟩
  | reply status body? =>
      by_cases hsuccess : IsSuccess status
      · right
        have hyes : (200 ≤ status && status < 300) = true := by
          rwa [Bool.and_eq_true, decide_eq_true_iff, decide_eq_true_iff]
        have hnot : ¬(Exchange.reply status body?).Passes := by
          have hstatus := hsuccess.2
          show ¬(status = 429 ∨ 500 ≤ status ∧ status < 600)
          omega
        refine ⟨hnot, ?_⟩
        rw [judge.eq_def]
        simp only [if_pos hyes]
        cases body? with
        | none => exact ⟨_, rfl, .cutOff hsuccess⟩
        | some body => exact ⟨_, rfl, .success hsuccess⟩
      · by_cases hauth : status = 401
        · subst hauth
          exact .inr ⟨(by unfold Passes; omega), _, rfl, .refused⟩
        · rw [judge_failure timeout hsuccess hauth]
          by_cases hpasses : status = 429 ∨ 500 ≤ status ∧ status < 600
          · rw [if_pos hpasses]
            exact .inl ⟨hpasses, _, rfl, brings_ofReply hsuccess hauth body?⟩
          · rw [if_neg hpasses]
            exact .inr ⟨hpasses, _, rfl, brings_ofReply hsuccess hauth body?⟩

end Exchange

/-! ## Attempts -/

section Exchange

variable {σ : Type} {transport : Transport σ} {timeout : Nat} {request : Request} {s : σ}

/-- The last word ends an exchange, however often it might be repeated. -/
theorem exchange_of_settled {result : Except ApiError String}
    (h : judge timeout (transport s request).1 = .settled result) (retries : Nat) :
    exchange transport timeout request retries s = (result, (transport s request).2) := by
  rw [exchange.eq_def]
  simp only [h]

/-- Without any patience left the reason to try again stands. -/
theorem exchange_zero_of_again {reason : ApiError}
    (h : judge timeout (transport s request).1 = .again reason) :
    exchange transport timeout request 0 s = (.error reason, (transport s request).2) := by
  rw [exchange.eq_def]
  simp only [h]

/-- What is worth another attempt is tried again. -/
theorem exchange_succ_of_again {reason : ApiError} {retries : Nat}
    (h : judge timeout (transport s request).1 = .again reason) :
    exchange transport timeout request (retries + 1) s =
      exchange transport timeout request retries (transport s request).2 := by
  rw [exchange.eq_def]
  simp only [h]

end Exchange

/-- A library that brings the outcomes of a script, whatever is asked, and notes the
    requests. -/
def scripted (outcomes : Nat → Exchange) : Transport (List Request) := fun sent request =>
  (outcomes sent.length, sent ++ [request])

/-- The last attempt of a client that repeats a request so many times: it brings the first
    outcome that does not pass by itself, or it is the last one that the client makes. -/
structure LastAttempt (outcomes : Nat → Exchange) (retries last : Nat) : Prop where
  bound : last ≤ retries
  passed : ∀ i < last, (outcomes i).Passes
  ends : last = retries ∨ ¬(outcomes last).Passes

namespace LastAttempt

variable {outcomes : Nat → Exchange} {retries : Nat}

/-- A script has one last attempt only. -/
theorem unique {m n : Nat} (hm : LastAttempt outcomes retries m)
    (hn : LastAttempt outcomes retries n) : m = n := by
  have hle : ∀ {m n : Nat}, LastAttempt outcomes retries m →
      LastAttempt outcomes retries n → n ≤ m := by
    intro m n hm hn
    rcases hm.ends with hend | hend
    · exact hend ▸ hn.bound
    · exact Nat.not_lt.mp fun hlt => hend (hn.passed m hlt)
  exact Nat.le_antisymm (hle hn hm) (hle hm hn)

/-- One attempt is enough where the first outcome is the last word. -/
theorem of_first (h : ¬(outcomes 0).Passes) : LastAttempt outcomes retries 0 where
  bound := Nat.zero_le retries
  passed := fun i hi => absurd hi (Nat.not_lt_zero i)
  ends := .inr h

/-- Another attempt in front of the others, which was worth repeating. -/
theorem succ {last : Nat} (hfirst : (outcomes 0).Passes)
    (h : LastAttempt (fun i => outcomes (i + 1)) retries last) :
    LastAttempt outcomes (retries + 1) (last + 1) where
  bound := Nat.succ_le_succ h.bound
  passed := by
    intro i hi
    cases i with
    | zero => exact hfirst
    | succ i => exact h.passed i (Nat.lt_of_succ_lt_succ hi)
  ends := h.ends.imp_left (congrArg (· + 1))

end LastAttempt

/-- **An exchange with a script ends with the last attempt**, and what this one brings is
    its result. -/
theorem exists_last_attempt (outcomes : Nat → Exchange) (timeout : Nat) (request : Request)
    (retries : Nat) (sent : List Request) :
    ∃ last, LastAttempt (fun i => outcomes (sent.length + i)) retries last ∧
      ∃ result, (outcomes (sent.length + last)).Brings timeout result ∧
        exchange (scripted outcomes) timeout request retries sent =
          (result, sent ++ List.replicate (last + 1) request) := by
  induction retries generalizing sent with
  | zero =>
      rcases Exchange.judge_cases timeout (outcomes sent.length) with
        ⟨-, reason, hjudge, hbrings⟩ | ⟨hlast, result, hjudge, hbrings⟩
      · refine ⟨0, ⟨Nat.le_refl 0, fun i hi => absurd hi (Nat.not_lt_zero i), .inl rfl⟩, ?_⟩
        exact ⟨_, hbrings, exchange_zero_of_again hjudge⟩
      · exact ⟨0, .of_first hlast, _, hbrings, exchange_of_settled hjudge 0⟩
  | succ retries ih =>
      rcases Exchange.judge_cases timeout (outcomes sent.length) with
        ⟨hpasses, reason, hjudge, -⟩ | ⟨hlast, result, hjudge, hbrings⟩
      · obtain ⟨last, hlast, result, hbrings, hrest⟩ := ih (sent ++ [request])
        have hlength : ∀ i, (sent ++ [request]).length + i = sent.length + (i + 1) := by
          intro i
          rw [List.length_append, List.length_singleton]
          omega
        simp only [hlength] at hlast hbrings
        refine ⟨last + 1, hlast.succ hpasses, result, hbrings, ?_⟩
        rw [exchange_succ_of_again hjudge]
        show exchange _ timeout request retries (sent ++ [request]) = _
        rw [hrest, List.append_assoc]
        rfl
      · exact ⟨0, .of_first hlast, _, hbrings, exchange_of_settled hjudge (retries + 1)⟩

/-! ## Answers -/

/-- The document in the body of an answer. A body without anything but blanks is null, and one
    that is no document is reported. -/
inductive Document (text : String) : Except ApiError Json → Prop
  | blank (h : ∀ c ∈ text.toList, Text.isBlank c = true) : Document text (.ok .null)
  | parsed {j : Json} (h : ∃ c ∈ text.toList, Text.isBlank c = false)
      (hread : Json.read? (some Value.nestingLimit) text = some j) : Document text (.ok j)
  | noDocument (h : ∃ c ∈ text.toList, Text.isBlank c = false)
      (hread : Json.read? (some Value.nestingLimit) text = none) :
      Document text (.error (.parse "Failed to parse response: no JSON"))

/-- A body holds one document or one error. -/
theorem document_iff {text : String} {answer : Except ApiError Json} :
    Document text answer ↔ answer = documentOf text := by
  have hblank : ¬text.toList.all Text.isBlank = true ↔
      ∃ c ∈ text.toList, Text.isBlank c = false := by
    simp
  constructor
  · intro h
    cases h with
    | blank h => rw [documentOf, if_pos (List.all_eq_true.mpr h)]
    | parsed h hread => rw [documentOf, if_neg (hblank.mpr h), hread]
    | noDocument h hread => rw [documentOf, if_neg (hblank.mpr h), hread]
  · rintro rfl
    rw [documentOf]
    split
    · next h => exact .blank (List.all_eq_true.mp h)
    · next h =>
        cases hread : Json.read? (some Value.nestingLimit) text with
        | some j => exact .parsed (hblank.mp h) hread
        | none => exact .noDocument (hblank.mp h) hread

/-- What the outcome of its request means for a call: every error is passed on, structured
    objects are documents, and of what only writes or deletes nothing is told. -/
inductive Call.Answers : (call : Call) → Except ApiError String → call.Answer → Prop
  | failed {call : Call} {reason : ApiError} : Answers call (.error reason) (.error reason)
  | created {a : Address} {payload : Json} {text : String} {answer : Except ApiError Json}
      (h : Document text answer) : Answers (.create a payload) (.ok text) answer
  | got {a : Address} {text : String} {answer : Except ApiError Json}
      (h : Document text answer) : Answers (.get a) (.ok text) answer
  | updated {a : Address} {payload : Json} {text : String} {answer : Except ApiError Json}
      (h : Document text answer) : Answers (.update a payload) (.ok text) answer
  | deleted {a : Address} {text : String} : Answers (.delete a) (.ok text) (.ok ())
  | textPut {a : Address} {body text : String} : Answers (.putText a body) (.ok text) (.ok ())
  | textGot {a : Address} {text : String} : Answers (.getText a) (.ok text) (.ok text)

/-- Each outcome is concluded to the one answer that it means. -/
theorem Call.answers_iff {call : Call} {result : Except ApiError String}
    {answer : call.Answer} : call.Answers result answer ↔ answer = call.conclude result := by
  constructor
  · intro h
    cases h with
    | failed => cases call <;> rfl
    | created h => exact document_iff.mp h
    | got h => exact document_iff.mp h
    | updated h => exact document_iff.mp h
    | deleted => rfl
    | textPut => rfl
    | textGot => rfl
  · rintro rfl
    cases result with
    | error reason => cases call <;> exact .failed
    | ok text =>
        cases call with
        | create a payload => exact .created (document_iff.mpr rfl)
        | get a => exact .got (document_iff.mpr rfl)
        | update a payload => exact .updated (document_iff.mpr rfl)
        | delete a => exact .deleted
        | putText a body => exact .textPut
        | getText a => exact .textGot

/-- **The outcome of the last attempt alone decides what a call is answered with.** Where a call
    has no request, nothing is sent and the reason is the answer. Otherwise its request is sent
    until an outcome does not pass by itself, or as often as the client is patient, and the last
    of these outcomes has the only answer that the call can have. -/
theorem Client.last_answer_decides (c : Client) (outcomes : Nat → Exchange) (call : Call) :
    match c.request call with
    | .error reason => c.ask (scripted outcomes) [] call = (.error reason, [])
    | .ok request => ∃ last, LastAttempt outcomes c.retries last ∧
      ∃ answer, (∀ other, (∃ result, (outcomes last).Brings c.timeout result ∧
          call.Answers result other) ↔ other = answer) ∧
        c.ask (scripted outcomes) [] call = (answer, List.replicate (last + 1) request) := by
  cases hrequest : c.request call with
  | error reason =>
      have hpassed : .error reason = call.conclude (.error reason) :=
        Call.answers_iff.mp .failed
      show c.ask _ _ _ = _
      rw [Client.ask, hrequest, hpassed]
  | ok request =>
      obtain ⟨last, hlast, result, hbrings, hexchange⟩ :=
        exists_last_attempt outcomes c.timeout request c.retries []
      simp only [List.length_nil, Nat.zero_add] at hlast hbrings
      refine ⟨last, hlast, call.conclude result, ?_, ?_⟩
      · intro other
        constructor
        · rintro ⟨actual, hactual, hother⟩
          obtain rfl := hactual.unique hbrings
          exact Call.answers_iff.mp hother
        · rintro rfl
          exact ⟨result, hbrings, Call.answers_iff.mpr rfl⟩
      · rw [Client.ask, hrequest]
        simp only [hexchange, List.nil_append]

/-- A client that repeats a request twice. -/
private def patient : Client where
  root := "http://host/api/tm/8.3/config/active"
  username := "admin"
  password := "secret"
  retries := 2
  timeout := 30

/-- A server that has a fault first, is slow then, and answers in the end. -/
private def recovering : Nat → Exchange
  | 0 => .reply 503 (some "busy")
  | 1 => .timedOut
  | _ => .reply 200 (some "\x7b\"properties\":\x7b\x7d\x7d")

/-- An explanation with a member that nobody reads. -/
private def explanation : String :=
  "\x7b\"error_id\":\"resource.not_found\",\"error_text\":\"No such pool\",\"limit\":1e999\x7d"

private theorem explains_explanation : RemoteFault.Explains explanation
    ⟨"resource.not_found", "No such pool", none⟩ := by
  have hread : (RemoteFault.ofText? explanation).map (fun f => (f.id, f.text, f.info.isSome)) =
      some ("resource.not_found", "No such pool", false) := by decide +kernel
  obtain ⟨⟨id, text, info⟩, hfault, hparts⟩ := Option.map_eq_some_iff.mp hread
  obtain ⟨rfl, rfl, hinfo⟩ : id = "resource.not_found" ∧ text = "No such pool" ∧
      info.isSome = false := by simpa using hparts
  obtain rfl : info = none := by simpa using hinfo
  exact RemoteFault.ofText?_eq_some_iff.mp hfault

/-- The third answer decides, and nothing of the first two is left. A fault that does not pass
    is reported at once, as the remote side explains it, and a body of blanks is null. -/
theorem third_answer_decides :
    ∃ request, patient.request (.get ⟨"pools", "p"⟩) = .ok request ∧
      patient.ask (scripted recovering) [] (.get ⟨"pools", "p"⟩) =
        (.ok (.object [("properties", .object [])]), [request, request, request]) ∧
      patient.ask (scripted fun _ => .reply 404 (some explanation)) [] (.get ⟨"pools", "p"⟩) =
        (.error (.api 404 "No such pool"
          (some ⟨"resource.not_found", "No such pool", none⟩)), [request]) ∧
      patient.ask (scripted fun _ => .reply 204 (some " \n")) [] (.get ⟨"pools", "p"⟩) =
        (.ok .null, [request]) := by
  have hrecovering := patient.last_answer_decides recovering (.get ⟨"pools", "p"⟩)
  have hmissing := patient.last_answer_decides (fun _ => .reply 404 (some explanation))
    (.get ⟨"pools", "p"⟩)
  have hblank := patient.last_answer_decides (fun _ => .reply 204 (some " \n"))
    (.get ⟨"pools", "p"⟩)
  have hok : (patient.request (.get ⟨"pools", "p"⟩)).isOk = true := by decide +kernel
  cases hrequest : patient.request (.get ⟨"pools", "p"⟩) with
  | error reason => rw [hrequest] at hok; exact nomatch hok
  | ok request =>
      rw [hrequest] at hrecovering hmissing hblank
      refine ⟨request, rfl, ?_, ?_, ?_⟩
      · obtain ⟨last, hlast, answer, honly, hask⟩ := hrecovering
        have htwo : LastAttempt recovering 2 2 := by
          refine ⟨Nat.le_refl 2, ?_, .inl rfl⟩
          intro i hi
          match i, hi with
          | 0, _ => exact .inr (by decide)
          | 1, _ => exact trivial
        obtain rfl := hlast.unique htwo
        have hread : Json.read? (some Value.nestingLimit)
            "\x7b\"properties\":\x7b\x7d\x7d" = some (.object [("properties", .object [])]) := rfl
        have hanswer := (honly _).mp ⟨_, .success (by unfold Exchange.IsSuccess; decide),
          .got (.parsed ⟨':', by decide, by decide⟩ hread)⟩
        rw [← hanswer] at hask
        exact hask
      · obtain ⟨last, hlast, answer, honly, hask⟩ := hmissing
        have hfirst : LastAttempt (fun _ => .reply 404 (some explanation)) 2 0 :=
          .of_first (by unfold Exchange.Passes; omega)
        obtain rfl := hlast.unique hfirst
        have hanswer := (honly _).mp ⟨_, .explained (by unfold Exchange.IsSuccess; omega)
          (by decide) explains_explanation, .failed⟩
        rw [← hanswer] at hask
        exact hask
      · obtain ⟨last, hlast, answer, honly, hask⟩ := hblank
        have hfirst : LastAttempt (fun _ => .reply 204 (some " \n")) 2 0 :=
          .of_first (by unfold Exchange.Passes; omega)
        obtain rfl := hlast.unique hfirst
        have hspace : ∀ c ∈ " \n".toList, Text.isBlank c = true := by simp [Text.isBlank]
        have hanswer := (honly _).mp ⟨_, .success (by unfold Exchange.IsSuccess; decide),
          .got (.blank hspace)⟩
        rw [← hanswer] at hask
        exact hask

end TrafficConfig
