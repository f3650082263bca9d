import NatsClient.Lib.Words
import NatsClient.PullV2.Theorems

namespace NatsClient.PullV2

open Lib.Machine Lib.Words Process

variable {Q W S : Type} {u : Setup Q} {s : State Q W S} {e : GoError}

-- 404 or 408 stands in the decimal digits of the size.
def Marked (b : Int) : Prop :=
  ∃ k, b.natAbs / 10 ^ k % 1000 = 404 ∨ b.natAbs / 10 ^ k % 1000 = 408

theorem marked_iff (b : Int) :
    Marked b ↔ "404".toList <:+: (toString b).toList ∨ "408".toList <:+: (toString b).toList := by
  have h404 : "404".toList = Nat.toDigits 10 404 := by decide
  have h408 : "408".toList = Nat.toDigits 10 408 := by decide
  rw [infix_toString_iff (by decide), infix_toString_iff (by decide), h404, h408,
    toDigits_infix_iff (by decide), toDigits_infix_iff (by decide)]
  exact exists_or

-- A word that is not in Fetch's own text and does not reach across its edges.
structure Foreign (w : List Char) : Prop where
  nonempty : w ≠ []
  head : w.head? ≠ some ' '
  equals : '=' ∉ w
  colon : ':' ∉ w
  own : ¬w <:+: "pull v2 fetch batch".toList

theorem Foreign.infix_iff {w digits msg : List Char} (hw : Foreign w) :
    w <:+: "pull v2 fetch batch=".toList ++ digits ++ ": ".toList ++ msg ↔
      w <:+: digits ∨ w <:+: msg := by
  have hsplit : "pull v2 fetch batch=".toList ++ digits ++ ": ".toList ++ msg =
      "pull v2 fetch batch".toList ++ '=' :: (digits ++ ':' :: ' ' :: msg) := by
    simp
  rw [hsplit, infix_append_cons_iff hw.equals, infix_append_cons_iff hw.colon,
    infix_cons_of_head hw.nonempty hw.head]
  exact or_iff_right hw.own

theorem foreign_timeout : Foreign "timeout".toList := by constructor <;> decide

theorem foreign_noMessages : Foreign "no messages".toList := by constructor <;> decide

theorem foreign_notFound : Foreign "404".toList := by constructor <;> decide

theorem foreign_requestTimeout : Foreign "408".toList := by constructor <;> decide

theorem map_toLowerRune_toString (b : Int) :
    (toString b).toList.map toLowerRune = (toString b).toList := by
  have hsame : ∀ c ∈ (toString b).toList, toLowerRune c = c :=
    forall_mem_toString (by decide) (by decide) b
  exact (List.map_congr_left hsame).trans (List.map_id' _)

theorem toLower_fetchFailed (b : Int) (msg : String) :
    (toLower ("pull v2 fetch batch=" ++ toString b ++ ": " ++ msg)).toList =
      "pull v2 fetch batch=".toList ++ (toString b).toList ++ ": ".toList ++
        (toLower msg).toList := by
  simp only [toLower, String.toList_append, List.map_append, String.toList_ofList,
    map_toLowerRune_toString]
  rfl

theorem isFetchIdleErr_fetchFailed (b : Int) (e : GoError) :
    isFetchIdleErr (.wrap ("pull v2 fetch batch=" ++ toString b ++ ": ") e "") = true ↔
      isFetchIdleErr e = true ∨ Marked b := by
  have hmessage : (GoError.wrap ("pull v2 fetch batch=" ++ toString b ++ ": ") e "").message =
      "pull v2 fetch batch=" ++ toString b ++ ": " ++ e.message := String.append_empty
  have htimeout := not_infix_toString (w := "timeout".toList) (c := 't') (by decide) (by decide)
    (by decide) b
  have hnone := not_infix_toString (w := "no messages".toList) (c := 'n') (by decide) (by decide)
    (by decide) b
  simp only [isFetchIdleErr, hmessage, GoError.wrap_is, Bool.or_eq_true, containsText_iff,
    toLower_fetchFailed, String.toList_append, foreign_timeout.infix_iff,
    foreign_noMessages.infix_iff, foreign_notFound.infix_iff, foreign_requestTimeout.infix_iff,
    marked_iff, htimeout, hnone, false_or]
  simp only [or_assoc, or_comm, or_left_comm]

-- The Fetch that is under way fails with the error: the request does, or the channel is closed
-- with an error before it has brought a message.
inductive FailsWith (u : Setup Q) (s : State Q W S) (e : GoError) : Prop
  | request (hpc : s.pc = .request) (he : u.requestErr s.next = some e)
  | drained (hpc : s.pc = .drained 0) (he : u.batchErr s.next = some e)

-- Fetch asks for b messages.
def Setup.sized (u : Setup Q) (b : Int) : Setup Q := { u with fetchBatch := fun _ => b }

-- Process has gone back to the top of its loop.
def Pc.continues : Pc → Bool
  | .top => true
  | _ => false

-- Fetch returns its error, and Process looks at it.
def Setup.continuesAfter (u : Setup Q) (b : Int) (s : State Q W S) : Option Bool :=
  ((loopStep (u.sized b) s).bind (loopStep (u.sized b))).map (·.pc.continues)

theorem isFetchIdleErr_of_deadline (h : e.is .deadlineExceeded = true) :
    isFetchIdleErr e = true := by
  simp [isFetchIdleErr, h]

theorem fetchFailed_is (u : Setup Q) (k : Nat) (e : GoError) (target : Sentinel) :
    (u.fetchFailed k e).is target = e.is target := by
  rw [Setup.fetchFailed]
  split_ifs
  · rfl
  · exact GoError.wrap_is ..

theorem fetchFailed_idle_iff (hcanceled : e.is .canceled = false) (b : Int) (k : Nat) :
    isFetchIdleErr ((u.sized b).fetchFailed k e) = true ↔ isFetchIdleErr e = true ∨ Marked b := by
  rw [Setup.fetchFailed, hcanceled, Bool.false_or]
  split_ifs with hdeadline
  · simp [isFetchIdleErr_of_deadline hdeadline]
  · exact isFetchIdleErr_fetchFailed b e

theorem fetchedStep_continues (u : Setup Q) (s : State Q W S) (e : GoError) :
    (fetchedStep u s 0 (some e)).pc.continues = (!e.is .canceled && isFetchIdleErr e) := by
  rw [fetchedStep, fetchVerdict]
  split_ifs with hcanceled hidle
  · simp [hcanceled, State.goto, Pc.continues]
  · have hidle : isFetchIdleErr e = true := by
      simpa [or_iff_right_of_imp isFetchIdleErr_of_deadline] using hidle
    simp [hcanceled, hidle, State.again, Pc.continues]
  · have hidle : isFetchIdleErr e = false := by
      simp only [Bool.or_eq_true, not_or, Bool.not_eq_true] at hidle
      exact hidle.2
    simp [hidle, State.goto, Pc.continues]

theorem drainedErr_eq {k : Nat} (he : u.batchErr k = some e) :
    u.drainedErr k 0 = if isFetchIdleErr e then none else some (u.fetchFailed k e) := by
  rw [Setup.drainedErr, he]
  rfl

-- An error of the channel that is idle by itself never gets to Process.
theorem FailsWith.continuesAfter_eq (h : FailsWith u s e) :
    (isFetchIdleErr e = true ∧ ∀ b, u.continuesAfter b s = some true) ∨
    ∀ b, u.continuesAfter b s =
      some (!e.is .canceled && isFetchIdleErr ((u.sized b).fetchFailed s.next e)) := by
  cases h with
  | request hpc he =>
    refine .inr fun b => ?_
    have he : (u.sized b).requestErr s.next = some e := he
    simp only [Setup.continuesAfter, loopStep, hpc, he, Option.bind_some, State.goto,
      Option.map_some, fetchedStep_continues, fetchFailed_is]
  | drained hpc he =>
    have hstep (b : Int) : u.continuesAfter b s = some (fetchedStep (u.sized b)
        (s.goto (.fetched 0 ((u.sized b).drainedErr s.next 0))) 0
        ((u.sized b).drainedErr s.next 0)).pc.continues := by
      simp only [Setup.continuesAfter, loopStep, hpc, Option.bind_some, State.goto,
        Option.map_some]
    have hdrained (b : Int) : (u.sized b).drainedErr s.next 0 =
        if isFetchIdleErr e then none else some ((u.sized b).fetchFailed s.next e) :=
      drainedErr_eq he
    cases hidle : isFetchIdleErr e with
    | true =>
      refine .inl ⟨rfl, fun b => ?_⟩
      rw [hstep, hdrained, hidle]
      rfl
    | false =>
      refine .inr fun b => ?_
      rw [hstep, hdrained, hidle]
      simp only [Bool.false_eq_true, if_false, fetchedStep_continues, fetchFailed_is]

-- The decision on a failed Fetch is the same for two sizes unless the error is one that Process
-- would return and the digits of just one size read like a status of an idle Fetch.
theorem fetch_decision_eq_iff (h : FailsWith u s e) (b₁ b₂ : Int) :
    u.continuesAfter b₁ s = u.continuesAfter b₂ s ↔
      e.is .canceled = true ∨ isFetchIdleErr e = true ∨ (Marked b₁ ↔ Marked b₂) := by
  obtain ⟨hidle, hcontinues⟩ | hcontinues := h.continuesAfter_eq
  · simp [hidle, hcontinues]
  rw [hcontinues, hcontinues]
  cases hcanceled : e.is .canceled with
  | true => simp
  | false =>
    have hidle (b : Int) := fetchFailed_idle_iff (u := u) hcanceled b s.next
    rw [Option.some_inj, Bool.not_false, Bool.true_and, Bool.true_and, Bool.eq_iff_iff,
      hidle, hidle]
    cases isFetchIdleErr e <;> simp

def consumerDeleted : GoError := .foreign "nats: consumer deleted" []

-- Every Fetch is refused, the consumer being gone.
def refused : Setup Empty := { twoFetched with requestErr := fun _ => some consumerDeleted }

-- Process is about to ask for the first batch.
def asking : State Empty Worker Empty := (initial refused).goto .request

theorem fetch_decision_eq_iff_refused :
    refused.continuesAfter 10 asking = refused.continuesAfter 64 asking := by
  refine (fetch_decision_eq_iff (.request rfl rfl) 10 64).mpr (.inr (.inr ?_))
  rw [marked_iff, marked_iff]
  decide

-- Process up to its decision on the first Fetch.
def firstFetch (b : Int) : Option (State Empty Worker Empty) :=
  exec (step (refused.sized b)) (initial (refused.sized b)) (List.replicate 5 .loop)

-- The same error ends Process when it asks for one message and is passed over when it asks
-- for 404.
theorem batch_size_hides_error :
    (firstFetch 1).map (·.pc) = some (.returned (.wrap "pull process fetch: "
      (.wrap "pull v2 fetch batch=1: " consumerDeleted "") "")) ∧
    (firstFetch 404).map (·.pc) = some .top := by
  constructor <;> rfl

end NatsClient.PullV2
