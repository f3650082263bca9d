import NatsClient.PullV2

namespace NatsClient.PullV2

variable {Q W S : Type} {u : Setup Q} {s t : State Q W S}

-- What the loop can do next, from the point where it is.
inductive LoopMove (u : Setup Q) (s : State Q W S) : Pc → State Q W S → Prop
  | stopped {e : GoError} (ctx : s.batch.ctxErr = some e) :
      LoopMove u s .top (s.goto (.returned (Pull.processErr e)))
  | began (ctx : s.batch.ctxErr = none) : LoopMove u s .top (s.goto .fetch)
  | woken {e : GoError} (ctx : s.batch.ctxErr = some e) :
      LoopMove u s .pause (s.goto (.returned (Pull.processErr e)))
  | shut (closed : s.closed = true) :
      LoopMove u s .fetch (s.goto (.fetched 0 (some ensureOpenErr)))
  | opened (closed : s.closed = false) : LoopMove u s .fetch (s.goto .opened)
  | late {e : GoError} (ctx : s.batch.ctxErr = some e) :
      LoopMove u s .opened (s.goto (.fetched 0 (some e)))
  | asked (ctx : s.batch.ctxErr = none) : LoopMove u s .opened (s.goto .request)
  | refused {e : GoError} (request : u.requestErr s.next = some e) :
      LoopMove u s .request (s.goto (.fetched 0 (some (u.fetchFailed s.next e))))
  | answered (request : u.requestErr s.next = none) : LoopMove u s .request (s.goto (.range 0))
  | took {i : Nat} (lt : i < u.size s.next) :
      LoopMove u s (.range i) ({ s with taken := s.taken ++ [(s.next, i)] }.goto (.check i))
  | drained {i : Nat} (ge : ¬ i < u.size s.next) : LoopMove u s (.range i) (s.goto (.drained i))
  | interrupted {i : Nat} {e : GoError} (ctx : s.batch.ctxErr = some e) :
      LoopMove u s (.check i) (s.goto (.fetched i (some e)))
  | kept {i : Nat} (ctx : s.batch.ctxErr = none) :
      LoopMove u s (.check i) (s.goto (.range (i + 1)))
  | fetched {n : Nat} : LoopMove u s (.drained n) (s.goto (.fetched n (u.drainedErr s.next n)))
  | empty : LoopMove u s (.fetched 0 none) s.again
  | handed {n : Nat} (pos : n ≠ 0) : LoopMove u s (.fetched n none) (s.hand u n)
  | nakking {n : Nat} {e : GoError} (verdict : Process.fetchVerdict .v2 e = .nakAndReturn) :
      LoopMove u s (.fetched n (some e)) (s.goto (.nak 0 n e))
  | skipped {n : Nat} {e : GoError} (verdict : Process.fetchVerdict .v2 e = .continue) :
      LoopMove u s (.fetched n (some e)) s.again
  | failed {n : Nat} {e : GoError} (verdict : Process.fetchVerdict .v2 e = .return) :
      LoopMove u s (.fetched n (some e)) (s.goto (.returned (.wrap "pull process fetch: " e "")))
  | nakked {i n : Nat} {e : GoError} (lt : i < n) :
      LoopMove u s (.nak i n e) ((s.nak u i).goto (.nak (i + 1) n e))
  | nakkedAll {i n : Nat} {e : GoError} (ge : ¬ i < n) :
      LoopMove u s (.nak i n e) (s.goto (.returned (Pull.processErr e)))
  | processed (batch : s.batch.pc = .returned none) : LoopMove u s .batch (s.goto .top)
  | mild {e : GoError} (batch : s.batch.pc = .returned (some e)) (mild : Process.fatal e = false) :
      LoopMove u s .batch (s.goto .top)
  | fatal {e : GoError} (batch : s.batch.pc = .returned (some e))
      (fatal : Process.fatal e = true) : LoopMove u s .batch (s.goto (.returned e))

theorem fetchedStep_move (s : State Q W S) (n : Nat) (err : Option GoError) :
    LoopMove u s (.fetched n err) (fetchedStep u s n err) := by
  cases err with
  | none =>
    unfold fetchedStep
    split_ifs with h
    · subst h
      exact .empty
    · exact .handed h
  | some e =>
    cases hv : Process.fetchVerdict .v2 e <;> simp only [fetchedStep, hv]
    case nakAndReturn => exact .nakking hv
    case «continue» => exact .skipped hv
    case «return» => exact .failed hv

theorem loopStep_move (h : loopStep u s = some t) : LoopMove u s s.pc t := by
  unfold loopStep at h
  cases hpc : s.pc <;> simp only [hpc] at h
  case top =>
    split at h
    case h_1 hctx => exact Option.some.inj h ▸ .stopped hctx
    case h_2 hctx => exact Option.some.inj h ▸ .began hctx
  case pause =>
    split at h
    case h_1 hctx => exact Option.some.inj h ▸ .woken hctx
    case h_2 hctx => cases h
  case fetch =>
    split_ifs at h with hclosed
    · exact Option.some.inj h ▸ .shut hclosed
    · exact Option.some.inj h ▸ .opened (Bool.eq_false_iff.mpr hclosed)
  case opened =>
    split at h
    case h_1 hctx => exact Option.some.inj h ▸ .late hctx
    case h_2 hctx => exact Option.some.inj h ▸ .asked hctx
  case request =>
    split at h
    case h_1 herr => exact Option.some.inj h ▸ .refused herr
    case h_2 herr => exact Option.some.inj h ▸ .answered herr
  case range i =>
    split_ifs at h with hi
    · exact Option.some.inj h ▸ .took hi
    · exact Option.some.inj h ▸ .drained hi
  case check i =>
    split at h
    case h_1 hctx => exact Option.some.inj h ▸ .interrupted hctx
    case h_2 hctx => exact Option.some.inj h ▸ .kept hctx
  case drained n => exact Option.some.inj h ▸ .fetched
  case fetched n err => exact Option.some.inj h ▸ fetchedStep_move s n err
  case nak i n e =>
    split_ifs at h with hi
    · exact Option.some.inj h ▸ .nakked hi
    · exact Option.some.inj h ▸ .nakkedAll hi
  case batch =>
    split at h
    case h_1 hbatch => exact Option.some.inj h ▸ .processed hbatch
    case h_2 e hbatch =>
      split_ifs at h with hfatal
      · exact Option.some.inj h ▸ .fatal hbatch hfatal
      · exact Option.some.inj h ▸ .mild hbatch (Bool.eq_false_iff.mpr hfatal)
    case h_3 => cases h
  case returned err => cases h

variable [DecidableEq Q] [DecidableEq W] [DecidableEq S] {act : Act Q W S}

-- A step outside the loop moves nothing but the circuit's pause.
inductive AsideMove (s : State Q W S) : State Q W S → Prop
  | paused (pc : s.pc = .fetch) : AsideMove s (s.goto .pause)
  | resumed (pc : s.pc = .pause) : AsideMove s (s.goto .top)
  | other (closed : Bool) (batch : Pull.State Q W S) :
      AsideMove s { s with closed := closed, batch := batch }

theorem step_move (h : step u s act = some t) :
    act = .loop ∧ loopStep u s = some t ∨ AsideMove s t := by
  cases act with
  | loop => exact .inl ⟨rfl, h⟩
  | pause =>
    refine .inr ?_
    simp only [step] at h
    split_ifs at h with hpc
    exact Option.some.inj h ▸ .paused hpc
  | resume =>
    refine .inr ?_
    simp only [step] at h
    split_ifs at h with hpc
    exact Option.some.inj h ▸ .resumed hpc
  | close => exact .inr (Option.some.inj h ▸ .other true s.batch)
  | batch act =>
    obtain ⟨batch, -, rfl⟩ := Option.map_eq_some_iff.mp h
    exact .inr (.other s.closed batch)

end NatsClient.PullV2
