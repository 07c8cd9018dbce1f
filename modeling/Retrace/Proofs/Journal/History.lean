/-
# Histories of a journal

A history is a fresh journal and the calls made on it since, each in surroundings of its own: what
the call before has left of them, or whatever has become of them by then.  So a loader may have
parsed more from one call to the next, and what a body nests may have grown.

`registrations` is the record that a history keeps beside its journal: which code has been
registered, told by the answers alone.

A journal is independent of all others (specification, section 2), so that its history is all there
is to tell about it.
-/

import Retrace.Proofs.Journal.CodeSteps

namespace Retrace

namespace Journal

/-- A fresh journal, and the calls made on it since, oldest first, each with its surroundings.  These
may be new with each call, as the engine may load by many loaders. -/
structure History (σ : Type) where
  /-- The context that the journal belongs to. -/
  context : ContextId
  /-- The calls, each with the surroundings in which it is made. -/
  calls : List (Call σ × σ)

namespace History

variable {σ : Type}

/-- The journal that a history has left after a number of calls; after its last one it stands
still. -/
def journal (h : History σ) (n : Nat) : Journal :=
  (h.calls.take n).foldl (fun j c => (c.1.run.after (j, c.2)).1) { context := h.context }

/-- The code that the next call registers, if it answers that this is new. -/
def newCode? (h : History σ) (n : Nat) : Option LoadedCode :=
  h.calls[n]?.bind fun c => c.1.newCode? (h.journal n, c.2)

/-- Whether the next call forgets all loaded code. -/
def forgetsCode (h : History σ) (n : Nat) : Bool := h.calls[n]?.any fun c => c.1.forgetsCode

/-- Whether the next call registers a body, and succeeds, be that new or not. -/
def RegistersNext (h : History σ) (n : Nat) (body : BodyHandle) : Prop :=
  ∃ c, h.calls[n]? = some c ∧ c.1.Registers (h.journal n, c.2) body

/-- The code that the first so many calls have registered, by their answers, since code was last
forgotten. -/
def registrations (h : History σ) : Nat → List LoadedCode
  | 0 => []
  | n + 1 => if h.forgetsCode n then [] else h.registrations n ++ (h.newCode? n).toList

/-- The journal that a history leaves. -/
def last (h : History σ) : Journal := h.journal h.calls.length

/-- The bodies that a history has registered, by the answers of its calls. -/
def registered (h : History σ) : List BodyHandle :=
  (h.registrations h.calls.length).map (·.body)

/-- Calls, each with the surroundings that the one before has left. -/
def handOver : List (Call σ) → Journal × σ → List (Call σ × σ)
  | [], _ => []
  | c :: rest, t => (c, t.2) :: handOver rest (c.run.after t)

/-- The history of calls made one right after another, on a fresh journal, where every call finds
what the one before has left. -/
def consecutive (ctx : ContextId) (calls : List (Call σ)) (st : σ) : History σ :=
  ⟨ctx, handOver calls ({ context := ctx }, st)⟩

theorem map_handOver (calls : List (Call σ)) (t : Journal × σ) :
    (handOver calls t).map (·.1) = calls := by
  induction calls generalizing t with
  | nil => rfl
  | cons c rest ih => rw [handOver, List.map_cons, ih]

/-- A journal and its surroundings after calls made one right after another. -/
def runAll (calls : List (Call σ)) (t : Journal × σ) : Journal × σ :=
  calls.foldl (fun t c => c.run.after t) t

theorem runAll_take_succ (calls : List (Call σ)) (n : Nat) (t : Journal × σ) :
    runAll (calls.take (n + 1)) t =
      runAll (calls[n]?.toList) (runAll (calls.take n) t) := by
  rw [List.take_add_one, runAll, List.foldl_append]
  rfl

theorem getElem?_handOver (calls : List (Call σ)) (t : Journal × σ) (n : Nat) :
    (handOver calls t)[n]? = calls[n]?.map fun c => (c, (runAll (calls.take n) t).2) := by
  induction calls generalizing t n with
  | nil => rfl
  | cons c rest ih =>
    cases n with
    | zero => rfl
    | succ n => exact ih (c.run.after t) n

theorem journal_succ_of_some (h : History σ) {n : Nat} {c : Call σ × σ}
    (hc : h.calls[n]? = some c) : h.journal (n + 1) = (c.1.run.after (h.journal n, c.2)).1 := by
  unfold journal
  rw [List.take_add_one, hc, List.foldl_append]
  rfl

theorem journal_succ_of_none (h : History σ) {n : Nat} (hc : h.calls[n]? = none) :
    h.journal (n + 1) = h.journal n := by
  unfold journal
  rw [List.take_add_one, hc, List.foldl_append]
  rfl

/-- The journal of such a history is the one that the calls leave. -/
theorem journal_consecutive (ctx : ContextId) (calls : List (Call σ)) (st : σ) (n : Nat) :
    (consecutive ctx calls st).journal n =
      (runAll (calls.take n) ({ context := ctx }, st)).1 := by
  induction n with
  | zero => rfl
  | succ n ih =>
    have hget := getElem?_handOver calls ({ context := ctx }, st) n
    rw [runAll_take_succ]
    cases hc : calls[n]? with
    | none =>
      rw [hc] at hget
      exact (journal_succ_of_none _ hget).trans ih
    | some c =>
      rw [hc] at hget
      rw [journal_succ_of_some _ hget, ih]
      rfl

theorem newCode?_of_some (h : History σ) {n : Nat} {c : Call σ × σ} (hc : h.calls[n]? = some c) :
    h.newCode? n = c.1.newCode? (h.journal n, c.2) := by
  rw [newCode?, hc]
  rfl

theorem forgetsCode_of_some (h : History σ) {n : Nat} {c : Call σ × σ}
    (hc : h.calls[n]? = some c) : h.forgetsCode n = c.1.forgetsCode := by
  rw [forgetsCode, hc]
  rfl

theorem registersNext_of_some (h : History σ) {n : Nat} {c : Call σ × σ}
    (hc : h.calls[n]? = some c) (body : BodyHandle) :
    h.RegistersNext n body ↔ c.1.Registers (h.journal n, c.2) body := by
  simp [RegistersNext, hc]

theorem not_registersNext_of_none (h : History σ) {n : Nat} (hc : h.calls[n]? = none)
    (body : BodyHandle) : ¬ h.RegistersNext n body := by
  simp [RegistersNext, hc]

/-- One more call has been made, or the history is at its end. -/
theorem journal_succ (h : History σ) (n : Nat) :
    h.calls[n]? = none ∧ h.journal (n + 1) = h.journal n ∨
      ∃ c : Call σ × σ, h.calls[n]? = some c ∧
        CodeStep c.1 (h.journal n, c.2) (h.journal (n + 1)) := by
  cases hc : h.calls[n]? with
  | none => exact .inl ⟨rfl, h.journal_succ_of_none hc⟩
  | some c =>
    refine .inr ⟨c, rfl, ?_⟩
    rw [h.journal_succ_of_some hc]
    exact c.1.codeStep _

/-- **What holds of a fresh journal and is kept by every step holds after any number of calls.** -/
theorem journal_induction (h : History σ) {P : Journal → Prop}
    (fresh : P { context := h.context }) (n : Nat)
    (step : ∀ m < n, ∀ c, h.calls[m]? = some c → P (h.journal m) →
      CodeStep c.1 (h.journal m, c.2) (h.journal (m + 1)) → P (h.journal (m + 1))) :
    P (h.journal n) := by
  induction n with
  | zero => exact fresh
  | succ n ih =>
    have hn := ih fun m hm => step m (Nat.lt_succ_of_lt hm)
    rcases h.journal_succ n with ⟨_, he⟩ | ⟨c, hc, hs⟩
    · rw [he]
      exact hn
    · exact step n (Nat.lt_succ_self n) c hc hn hs

end History

end Journal

end Retrace
