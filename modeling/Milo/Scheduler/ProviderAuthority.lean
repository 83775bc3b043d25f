import Milo.Python.Text
import Milo.Reasoning.Chain
import Milo.Scheduler.ProviderScheduler

/-!
# ProviderAuthority — what a failed provider request proves

`classify_outcome` and `completion_is_proven` over an exception and the exceptions its `__cause__` and
`__context__` lead to.  The text of a header is read by a parameter, as `float` reads it.
-/

namespace Milo.Scheduler

open Milo.Reasoning Milo.Python

/-! ## 1. Exceptions -/

/-- The response object an exception carries: its status if that is an integer, and the header. -/
structure ProviderResponse where
  statusCode : Option ℤ
  retryAfter : Option (List Char)

structure RaisedException where
  className : String
  /-- `isinstance(exc, CancellationRequested)`. -/
  isCancellation : Bool
  /-- `provider_request_completed`, if it is declared. -/
  requestCompleted : Option Bool
  response : Option ProviderResponse
  /-- The integer `status_code` the exception itself advertises. -/
  statusCode : Option ℤ
  /-- `str(exc or "").lower()`. -/
  text : List Char
  cause : Option ℕ
  context : Option ℕ

/-- `current.__cause__ or current.__context__`. -/
def RaisedException.next (exc : RaisedException) : Option ℕ := exc.cause.or exc.context

/-- An exception among the exceptions it may lead to. -/
structure Raised where
  heap : Dict ℕ RaisedException
  id : ℕ
  exception : RaisedException
  present : heap.get? id = some exception

/-- The links lead from the exception to this one. -/
def Raised.Leads (exc : Raised) (link : RaisedException) : Prop :=
  ∃ id, Linked exc.heap RaisedException.next exc.id id link

def causeChain (exc : Raised) : List RaisedException :=
  (chain exc.heap RaisedException.next [] (some exc.id)).map Prod.snd

theorem mem_causeChain_iff {exc : Raised} {link : RaisedException} :
    link ∈ causeChain exc ↔ exc.Leads link := by
  unfold causeChain Raised.Leads
  rw [List.mem_map]
  constructor
  · rintro ⟨⟨id, node⟩, he, rfl⟩
    exact ⟨id, mem_chain_iff.mp he⟩
  · rintro ⟨id, hlinked⟩
    exact ⟨(id, link), mem_chain_iff.mpr hlinked, rfl⟩

/-! ## 2. What they prove -/

/-- `_NEVER_SENT`. -/
def neverSent : List String :=
  ["ConnectError", "ConnectTimeout", "PoolTimeout", "UnsupportedProtocol", "InvalidURL", "ProxyError"]

def deadlineExceeded : String := "ProviderRequestDeadlineExceeded"

def failedBeforeTheRequestWasSent (exc : Raised) : Bool :=
  (causeChain exc).any fun link => decide (link.className ∈ neverSent)

def firedATotalDeadline (exc : Raised) : Bool :=
  (causeChain exc).any fun link => decide (link.className = deadlineExceeded)

def carriesACompleteProviderResponse (exc : RaisedException) : Bool :=
  ((exc.response.bind ProviderResponse.statusCode).any fun status =>
    decide (100 ≤ status) && decide (status ≤ 599))

/-- `_claimed_status`. -/
def claimedStatus (exc : RaisedException) : Option ℤ :=
  exc.statusCode.or (exc.response.bind ProviderResponse.statusCode)

def rateLimitReached : String := "rate_limit_reached_error"

def engineOverloaded : String := "engine_overloaded_error"

def exceededCurrentQuota : String := "exceeded_current_quota_error"

def searchRateLimited : String := "rate_limited"

def searchRateLimitUnavailable : String := "rate_limit_unavailable"

/-- `marker in text`. -/
def mentions (text : List Char) (marker : String) : Bool := decide (marker.toList <:+: text)

def providerFailureCode (exc : RaisedException) : Option String :=
  match [exceededCurrentQuota, engineOverloaded, rateLimitReached, searchRateLimitUnavailable].find?
      (mentions exc.text) with
  | some marker => some marker
  | none =>
    if mentions exc.text "project qps limit exceeded" then some searchRateLimited
    else if claimedStatus exc = some 429 || mentions exc.text "http 429" ||
        mentions exc.text "error code: 429" then some rateLimitReached
    else if claimedStatus exc = some 503 || mentions exc.text "overloaded" then some engineOverloaded
    else if mentions exc.text "max organization concurrency" ||
        mentions exc.text "organization max rpm" then some rateLimitReached
    else none

/-- What `float` makes of a text. -/
inductive ReadFloat
  | finite (value : ℚ)
  | infinite
  | negativeInfinite
  | nan
  deriving DecidableEq

def retryAfterSeconds (readFloat : List Char → Option ReadFloat) (exc : RaisedException) : Option Seconds :=
  match (exc.response.bind ProviderResponse.retryAfter).bind fun raw => readFloat (strip raw) with
  | none | some .negativeInfinite => none
  | some (.finite value) => if value < 0 then none else some (.finite value)
  | some .infinite => some .infinite
  | some .nan => some .nan

/-- Whether the request is proven to be over, and the reason if it is not. -/
def completionIsProven : Option Raised → Bool × String
  | none => (true, "")
  | some exc =>
    match exc.exception.requestCompleted with
    | some declared => (declared, if declared then "" else "PROVIDER_REQUEST_OUTCOME_DECLARED_UNKNOWN")
    | none =>
      if firedATotalDeadline exc then (false, "PROVIDER_REQUEST_DEADLINE_EXCEEDED")
      else if carriesACompleteProviderResponse exc.exception then (true, "")
      else if failedBeforeTheRequestWasSent exc then (true, "")
      else (false, "PROVIDER_REQUEST_OUTCOME_UNKNOWN")

/-- `SUCCESS_VERDICT`. -/
def successVerdict : ProviderVerdict := ⟨.success, none, true, "", none⟩

/-- The verdict about an exception, with an outcome and a code. -/
def verdictOf (readFloat : List Char → Option ReadFloat) (exc : Raised) (outcome : ProviderOutcome)
    (code : Option String) : ProviderVerdict where
  outcome := outcome
  providerCode := code
  completionProven := (completionIsProven (some exc)).1
  unprovenReason := if (completionIsProven (some exc)).1 then "" else (completionIsProven (some exc)).2
  retryAfter := retryAfterSeconds readFloat exc.exception

/-- The outcome of an exception and the provider's failure class. -/
def outcomeOf (exc : Raised) : ProviderOutcome × Option String :=
  if exc.exception.isCancellation then (.cancellation, none)
  else if firedATotalDeadline exc then (.timeout, none)
  else
    match providerFailureCode exc.exception with
    | some code =>
      (if code = exceededCurrentQuota then .nonRetryableFailure else .rateLimit, some code)
    | none =>
      match if carriesACompleteProviderResponse exc.exception then claimedStatus exc.exception else none with
      | some status =>
        (if 500 ≤ status ∧ status ≤ 599 then .retryableFailure
          else if 400 ≤ status ∧ status ≤ 499 then .nonRetryableFailure
          else .unknown, none)
      | none => (if failedBeforeTheRequestWasSent exc then .retryableFailure else .unknown, none)

def classifyOutcome (readFloat : List Char → Option ReadFloat) : Option Raised → ProviderVerdict
  | none => successVerdict
  | some exc => verdictOf readFloat exc (outcomeOf exc).1 (outcomeOf exc).2

/-! ## 3. A chain that reached the wire -/

/-- The class names of failures after the request was sent. -/
def postSend : List String :=
  ["ReadTimeout", "ReadError", "RemoteProtocolError", "WriteError", deadlineExceeded,
    "ProviderStreamInterrupted"]

section Proofs

variable {exc : Raised}

theorem firedATotalDeadline_iff :
    firedATotalDeadline exc = true ↔ ∃ link, exc.Leads link ∧ link.className = deadlineExceeded := by
  unfold firedATotalDeadline
  rw [List.any_eq_true]
  constructor
  · rintro ⟨link, hlink, hname⟩
    exact ⟨link, mem_causeChain_iff.mp hlink, of_decide_eq_true hname⟩
  · rintro ⟨link, hlink, hname⟩
    exact ⟨link, mem_causeChain_iff.mpr hlink, decide_eq_true hname⟩

theorem failedBeforeTheRequestWasSent_iff :
    failedBeforeTheRequestWasSent exc = true ↔ ∃ link, exc.Leads link ∧ link.className ∈ neverSent := by
  unfold failedBeforeTheRequestWasSent
  rw [List.any_eq_true]
  constructor
  · rintro ⟨link, hlink, hname⟩
    exact ⟨link, mem_causeChain_iff.mp hlink, of_decide_eq_true hname⟩
  · rintro ⟨link, hlink, hname⟩
    exact ⟨link, mem_causeChain_iff.mpr hlink, decide_eq_true hname⟩

/-- The verdict holds the permit exactly if completion is not proven. -/
theorem classifyOutcome_completionProven (readFloat : List Char → Option ReadFloat)
    (exc : Option Raised) :
    (classifyOutcome readFloat exc).completionProven = (completionIsProven exc).1 := by
  cases exc with
  | none => rfl
  | some exc => rfl

/-- Without a declaration and a response, completion is proven by a never-sent failure alone, unless the
    deadline fired. -/
theorem completionIsProven_iff (hdeclared : exc.exception.requestCompleted = none)
    (hresponse : exc.exception.response = none) :
    (completionIsProven (some exc)).1 = true ↔
      firedATotalDeadline exc = false ∧ failedBeforeTheRequestWasSent exc = true := by
  have hincomplete : carriesACompleteProviderResponse exc.exception = false := by
    unfold carriesACompleteProviderResponse
    rw [hresponse]
    rfl
  unfold completionIsProven
  simp only [hdeclared, hincomplete]
  cases firedATotalDeadline exc <;> cases failedBeforeTheRequestWasSent exc <;> decide

/-- Some link of the chain shows that the request reached the wire. -/
def Raised.ReachedTheWire (exc : Raised) : Prop :=
  ∃ link, exc.Leads link ∧ link.className ∈ postSend

/-- Completion is not proven, the verdict says so, and the settlement it leads to keeps the permit. -/
def Raised.HoldsPermit (exc : Raised) (readFloat : List Char → Option ReadFloat) : Prop :=
  (completionIsProven (some exc)).1 = false ∧
    (classifyOutcome readFloat (some exc)).completionProven = false ∧
    Quota.settleOutcome (classifyOutcome readFloat (some exc)).completionProven = .quarantined

theorem Raised.holdsPermit_iff {readFloat : List Char → Option ReadFloat} :
    exc.HoldsPermit readFloat ↔ (completionIsProven (some exc)).1 = false := by
  unfold Raised.HoldsPermit
  rw [classifyOutcome_completionProven]
  constructor
  · exact fun h => h.1
  · intro h
    rw [h]
    exact ⟨rfl, rfl, rfl⟩

/-- A chain that reached the wire keeps the permit exactly if the deadline fired in it or no link of it
    failed before sending. -/
theorem holdsPermit_afterSending_iff (readFloat : List Char → Option ReadFloat) (exc : Raised)
    (hdeclared : exc.exception.requestCompleted = none) (hresponse : exc.exception.response = none) :
    (exc.ReachedTheWire → exc.HoldsPermit readFloat) ↔
      (exc.ReachedTheWire → (∃ link, exc.Leads link ∧ link.className = deadlineExceeded) ∨
        ∀ link, exc.Leads link → link.className ∉ neverSent) := by
  apply imp_congr_right
  intro _
  rw [Raised.holdsPermit_iff, ← Bool.not_eq_true, completionIsProven_iff hdeclared hresponse,
    failedBeforeTheRequestWasSent_iff, ← firedATotalDeadline_iff]
  constructor
  · intro h
    cases hfired : firedATotalDeadline exc with
    | true => exact Or.inl rfl
    | false =>
      apply Or.inr
      intro link hlink hname
      exact h ⟨hfired, link, hlink, hname⟩
  · rintro h ⟨hfired, link, hlink, hname⟩
    rcases h with h | h
    · rw [hfired] at h
      cases h
    · exact h link hlink hname

/-- An exception with no marker, response or status. -/
def transportError (className : String) (context : Option ℕ) : RaisedException :=
  ⟨className, false, none, none, none, [], none, context⟩

end Proofs

/-- An exception that no other led to. -/
def Raised.alone (exception : RaisedException) : Raised where
  heap := Dict.set .empty 0 exception
  id := 0
  exception := exception
  present := by simp

theorem causeChain_alone {exception : RaisedException} (h : exception.next = none) :
    causeChain (.alone exception) = [exception] := by
  have hget : (Raised.alone exception).heap.get? 0 = some exception := (Raised.alone exception).present
  have hchain : chain (Raised.alone exception).heap RaisedException.next [] (some 0) =
      [(0, exception)] := by
    rw [chain]
    simp only [List.not_mem_nil, if_false]
    split
    · rename_i hnone
      rw [hget] at hnone
      cases hnone
    · rename_i node hsome
      rw [hget] at hsome
      cases hsome
      rw [h, chain]
  show (chain (Raised.alone exception).heap RaisedException.next [] (some 0)).map Prod.snd = _
  rw [hchain]
  rfl

/-- A request that timed out while its answer was read. -/
def readTimeout : Raised := .alone (transportError "ReadTimeout" none)

theorem holdsPermit_readTimeout :
    (readTimeout.ReachedTheWire → readTimeout.HoldsPermit fun _ => none) ↔
      (readTimeout.ReachedTheWire →
        (∃ link, readTimeout.Leads link ∧ link.className = deadlineExceeded) ∨
          ∀ link, readTimeout.Leads link → link.className ∉ neverSent) :=
  holdsPermit_afterSending_iff (fun _ => none) readTimeout rfl rfl

/-- A read that failed while a connection error was being handled. -/
def readAfterConnect : Raised where
  heap := Dict.set (Dict.set .empty 1 (transportError "ConnectError" none)) 0
    (transportError "ReadError" (some 1))
  id := 0
  exception := transportError "ReadError" (some 1)
  present := by simp

/-- A read that fails while a connection error is handled counts as a request that was never sent. -/
theorem readAfterConnect_released :
    ¬ ∀ (readFloat : List Char → Option ReadFloat) (exc : Raised),
      exc.exception.requestCompleted = none → exc.exception.response = none →
        exc.ReachedTheWire → exc.HoldsPermit readFloat := by
  intro h
  have hwire : readAfterConnect.ReachedTheWire :=
    ⟨readAfterConnect.exception, ⟨0, .first readAfterConnect.present⟩, by decide⟩
  have hheld := (h (fun _ => none) readAfterConnect rfl rfl hwire).1
  have hcontext : readAfterConnect.heap.get? 1 = some (transportError "ConnectError" none) :=
    (Dict.get?_set_ne _ _ (by decide)).trans (Dict.get?_set_self _ _ _)
  have hleads : readAfterConnect.Leads (transportError "ConnectError" none) :=
    ⟨1, .step (.first readAfterConnect.present) rfl hcontext⟩
  have hproven : (completionIsProven (some readAfterConnect)).1 = true := by
    rw [completionIsProven_iff rfl rfl]
    constructor
    · rw [← Bool.not_eq_true, firedATotalDeadline_iff]
      rintro ⟨link, ⟨id, hlinked⟩, hname⟩
      have hmem : (id, link) ∈ readAfterConnect.heap.entries := Dict.get?_eq_some.mp hlinked.get?
      rcases Dict.mem_entries_set.mp hmem with ⟨-, rfl⟩ | ⟨-, hmem⟩
      · exact absurd hname (by decide)
      · rcases Dict.mem_entries_set.mp hmem with ⟨-, rfl⟩ | ⟨-, hmem⟩
        · exact absurd hname (by decide)
        · cases hmem
    · exact failedBeforeTheRequestWasSent_iff.mpr ⟨_, hleads, by decide⟩
  rw [hproven] at hheld
  cases hheld

end Milo.Scheduler
