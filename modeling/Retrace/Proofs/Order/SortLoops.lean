/-
# The loops of the shell sort

`shellSort` keeps its positions in range by type, and ends by the way it is written.  Here its nested
loops run one step at a time instead, over plain positions that nothing bounds:

| state | step |
| --- | --- |
| no pass is left | it stands still |
| the pass has come to the end | the next pass begins, at the position of its gap |
| the item has none a gap before it | the next item is taken |
| it has one | both are read and compared; they change places, or the next item is taken |

To read a position that is out of range yields nothing.  The comparator is any at all: it may
contradict itself, and answer by a memory of its own, differently each time.  Yet no step goes out of
range, nothing is lost on the way, and after `longest` steps no pass is left (`Loops.run_start`).
Where the answers depend on the items alone, the loops leave what `shellSort` gives, after as many
comparisons as it counts (`Loops.run_counting`).

Sort and search are testable properties of the specification (section 12); that the loops stay in
range is what no test can cover.
-/

import Retrace.Proofs.Order.ShellSort

namespace Retrace

namespace ShellSort

/-- A comparator that may answer by a memory of its own, so that nothing can be assumed of two
answers taken together. -/
abbrev Comparator (σ α : Type) := α → α → σ → Ordering × σ

/-- The nested loops of a sort under way: the passes to come, the item to be placed, and where it
has sunk to. -/
structure Loops (σ α : Type) where
  /-- The items in their present order. -/
  items : Array α
  /-- The gap of this pass, and those of the passes after it. -/
  gaps : List Nat
  /-- How far the pass has come. -/
  i : Nat
  /-- Where the item is that sinks from there. -/
  j : Nat
  /-- What the comparator remembers. -/
  memory : σ

/-- How many steps the passes over so many items take at most. -/
def longest (size : Nat) : List Nat → Nat
  | [] => 0
  | gap :: rest => size * (size + 2) + gap + 2 + longest size rest

namespace Loops

variable {σ α : Type}

/-- The beginning of a pass, or the end if none is left. -/
def atPass (items : Array α) (gaps : List Nat) (memory : σ) : Loops σ α :=
  ⟨items, gaps, gaps.headD 0, gaps.headD 0, memory⟩

/-- The beginning of a sort. -/
def start (items : List α) (memory : σ) : Loops σ α := atPass items.toArray ShellSort.gaps memory

/-- Goes on to the next item. -/
def next (s : Loops σ α) : Loops σ α := { s with i := s.i + 1, j := s.i + 1 }

/-- Lets the sinking item change places with the one a gap before it. -/
def exchange (s : Loops σ α) (gap : Nat) : Loops σ α :=
  { s with items := s.items.swapIfInBounds (s.j - gap) s.j, j := s.j - gap }

/-- Lets the comparator remember something else. -/
def remember (s : Loops σ α) (memory : σ) : Loops σ α := { s with memory }

/-- One step; nothing if it reads a position that is out of range. -/
def step (cmp : Comparator σ α) (s : Loops σ α) : Option (Loops σ α) :=
  match s.gaps with
  | [] => some s
  | gap :: rest =>
    if s.items.size ≤ s.i then some (atPass s.items rest s.memory)
    else if s.j < gap then some s.next
    else do
      let a ← s.items[s.j - gap]?
      let b ← s.items[s.j]?
      let (answer, memory) := cmp a b s.memory
      return (if answer = .gt then s.exchange gap else s.next).remember memory

/-- So many steps. -/
def run (cmp : Comparator σ α) : Nat → Loops σ α → Option (Loops σ α)
  | 0, s => some s
  | n + 1, s => (s.step cmp).bind (run cmp n)

variable {s : Loops σ α} {cmp : Comparator σ α} {gap : Nat} {rest : List Nat}

/-! ## One step -/

theorem step_of_no_pass (hg : s.gaps = []) : s.step cmp = some s := by
  rw [step, hg]

theorem step_at_end (hg : s.gaps = gap :: rest) (hi : s.items.size ≤ s.i) :
    s.step cmp = some (atPass s.items rest s.memory) := by
  rw [step, hg]
  exact if_pos hi

theorem step_of_lt (hg : s.gaps = gap :: rest) (hi : s.i < s.items.size) (hj : s.j < gap) :
    s.step cmp = some s.next := by
  rw [step, hg]
  exact (if_neg (Nat.not_le.2 hi)).trans (if_pos hj)

/-- Both positions are in range if that of the sinking item is. -/
theorem step_of_le (hg : s.gaps = gap :: rest) (hi : s.i < s.items.size) (hj : gap ≤ s.j)
    (hjs : s.j < s.items.size) {answer : Ordering} {memory : σ}
    (ha : cmp s.items[s.j - gap] s.items[s.j] s.memory = (answer, memory)) :
    s.step cmp = some ((if answer = .gt then s.exchange gap else s.next).remember memory) := by
  rw [step, hg]
  refine (if_neg (Nat.not_le.2 hi)).trans ((if_neg (Nat.not_lt.2 hj)).trans ?_)
  rw [Array.getElem?_eq_getElem (Nat.lt_of_le_of_lt (Nat.sub_le _ _) hjs),
    Array.getElem?_eq_getElem hjs]
  simp only [Option.bind_eq_bind, Option.bind_some, ha, Option.pure_def]

/-! ## No step goes wrong -/

/-- How many steps there still are at most: those of the passes to come, and what this pass may
still take. -/
def stepsLeft (s : Loops σ α) : Nat :=
  match s.gaps with
  | [] => 0
  | _ :: rest =>
    (s.items.size - s.i) * (s.items.size + 2) + s.j + 1 + longest s.items.size rest

theorem stepsLeft_eq (hg : s.gaps = gap :: rest) : s.stepsLeft =
    (s.items.size - s.i) * (s.items.size + 2) + s.j + 1 + longest s.items.size rest := by
  rw [stepsLeft, hg]

theorem stepsLeft_remember (s : Loops σ α) (memory : σ) :
    (s.remember memory).stepsLeft = s.stepsLeft := rfl

theorem stepsLeft_atPass_le (items : Array α) (gaps : List Nat) (memory : σ) :
    (atPass items gaps memory).stepsLeft ≤ longest items.size gaps := by
  cases gaps with
  | nil => exact Nat.zero_le _
  | cons gap rest =>
    have hmul : (items.size - gap) * (items.size + 2) ≤ items.size * (items.size + 2) :=
      Nat.mul_le_mul_right _ (Nat.sub_le _ _)
    simp only [stepsLeft, atPass, List.headD_cons, longest]
    omega

/-- To go on to the next item costs a row of steps, and the item may then sink by less than that. -/
theorem stepsLeft_next_lt (hg : s.gaps = gap :: rest) (hi : s.i < s.items.size) :
    s.next.stepsLeft < s.stepsLeft := by
  have hrow : (s.items.size - s.i) * (s.items.size + 2) =
      (s.items.size - (s.i + 1)) * (s.items.size + 2) + (s.items.size + 2) := by
    rw [← Nat.succ_mul]
    congr 1
    omega
  simp only [stepsLeft, next, hg, hrow]
  omega

theorem stepsLeft_exchange_lt (hg : s.gaps = gap :: rest) (hpos : 0 < gap) (hj : gap ≤ s.j) :
    (s.exchange gap).stepsLeft < s.stepsLeft := by
  simp only [stepsLeft, exchange, hg, Array.size_swapIfInBounds]
  omega

/-- What each step keeps: the items are those given, and the positions those of a pass. -/
structure Sound (items : List α) (s : Loops σ α) : Prop where
  /-- The items are a permutation of those given. -/
  perm : s.items.toList.Perm items
  /-- No gap is zero. -/
  positive : ∀ gap ∈ s.gaps, 0 < gap
  /-- An item sinks from where the pass is. -/
  le : s.j ≤ s.i

variable {items : List α}

theorem Sound.remember (h : Sound items s) (memory : σ) : Sound items (s.remember memory) :=
  ⟨h.perm, h.positive, h.le⟩

theorem Sound.next (h : Sound items s) : Sound items s.next := ⟨h.perm, h.positive, Nat.le_refl _⟩

theorem Sound.exchange (h : Sound items s) (gap : Nat) (hj : s.j < s.items.size) :
    Sound items (s.exchange gap) where
  perm := by
    rw [Loops.exchange, Array.swapIfInBounds_def,
      dif_pos (Nat.lt_of_le_of_lt (Nat.sub_le _ _) hj), dif_pos hj]
    exact (Array.swap_perm _ _).toList.trans h.perm
  positive := h.positive
  le := Nat.le_trans (Nat.sub_le _ _) h.le

/-- **A step never reads out of range**, whatever the comparator answers, and brings the end nearer
as long as a pass is left. -/
theorem Sound.step (h : Sound items s) (cmp : Comparator σ α) :
    ∃ t, s.step cmp = some t ∧ Sound items t ∧
      (t.stepsLeft < s.stepsLeft ∨ s.gaps = [] ∧ t = s) := by
  cases hg : s.gaps with
  | nil => exact ⟨s, step_of_no_pass hg, h, .inr ⟨rfl, rfl⟩⟩
  | cons gap rest =>
    have hpositive := h.positive
    rw [hg, List.forall_mem_cons] at hpositive
    by_cases hi : s.items.size ≤ s.i
    · refine ⟨_, step_at_end hg hi, ⟨h.perm, hpositive.2, Nat.le_refl _⟩, .inl ?_⟩
      refine Nat.lt_of_le_of_lt (stepsLeft_atPass_le _ _ _) ?_
      rw [stepsLeft_eq hg]
      omega
    have hi : s.i < s.items.size := Nat.not_le.1 hi
    by_cases hj : s.j < gap
    · exact ⟨_, step_of_lt hg hi hj, h.next, .inl (stepsLeft_next_lt hg hi)⟩
    have hj : gap ≤ s.j := Nat.not_lt.1 hj
    have hjs : s.j < s.items.size := Nat.lt_of_le_of_lt h.le hi
    cases ha : cmp s.items[s.j - gap] s.items[s.j] s.memory with
    | mk answer memory =>
      refine ⟨_, step_of_le hg hi hj hjs ha, ?_⟩
      rw [stepsLeft_remember]
      split
      · exact ⟨(h.exchange gap hjs).remember memory, .inl (stepsLeft_exchange_lt hg hpositive.1 hj)⟩
      · exact ⟨h.next.remember memory, .inl (stepsLeft_next_lt hg hi)⟩

/-- **Any number of steps goes well**, and if there are enough of them no pass is left. -/
theorem Sound.run (h : Sound items s) (cmp : Comparator σ α) (n : Nat) :
    ∃ t, s.run cmp n = some t ∧ Sound items t ∧ (s.stepsLeft ≤ n → t.gaps = []) := by
  induction n generalizing s with
  | zero =>
    refine ⟨s, rfl, h, fun hn => ?_⟩
    cases hg : s.gaps with
    | nil => rfl
    | cons gap rest =>
      rw [stepsLeft_eq hg] at hn
      omega
  | succ n ih =>
    obtain ⟨t, hstep, ht, hless⟩ := h.step cmp
    obtain ⟨u, hrun, hu, hend⟩ := ih ht
    refine ⟨u, by rw [Loops.run, hstep, Option.bind_some, hrun], hu, fun hn => hend ?_⟩
    rcases hless with hlt | ⟨hg, rfl⟩
    · omega
    · rw [stepsLeft, hg]
      exact Nat.zero_le _

theorem gaps_positive : ∀ gap ∈ ShellSort.gaps, 0 < gap := by decide

theorem sound_start (items : List α) (memory : σ) : Sound items (start items memory) :=
  ⟨.refl _, gaps_positive, Nat.le_refl _⟩

/-- **The sort of any list goes well and ends**, whatever the comparator answers. -/
theorem run_start (cmp : Comparator σ α) (items : List α) (memory : σ) (n : Nat) :
    ∃ s, (start items memory).run cmp n = some s ∧ Sound items s ∧
      (longest items.length ShellSort.gaps ≤ n → s.gaps = []) := by
  obtain ⟨s, hrun, hs, hend⟩ := (sound_start items memory).run cmp n
  exact ⟨s, hrun, hs, fun hn => hend (Nat.le_trans (stepsLeft_atPass_le _ _ _) hn)⟩

/-! ## The loops compute the sort -/

theorem run_add (cmp : Comparator σ α) (m n : Nat) (s : Loops σ α) :
    s.run cmp (m + n) = (s.run cmp m).bind (run cmp n) := by
  induction m generalizing s with
  | zero => rw [Nat.zero_add, run, Option.bind_some]
  | succ m ih =>
    rw [Nat.succ_add, run, run, Option.bind_assoc]
    exact congrArg _ (funext ih)

/-- Without a pass left, further steps change nothing. -/
theorem run_of_gaps_eq_nil (cmp : Comparator σ α) (hg : s.gaps = []) (n : Nat) :
    s.run cmp n = some s := by
  induction n with
  | zero => rfl
  | succ n ih =>
    rw [run, step_of_no_pass hg, Option.bind_some, ih]

/-- Some number of steps leads from one state to the other, each of them in range. -/
def LeadsTo (cmp : Comparator σ α) (s t : Loops σ α) : Prop := ∃ n, s.run cmp n = some t

theorem LeadsTo.trans {cmp : Comparator σ α} {s t u : Loops σ α} (hst : LeadsTo cmp s t)
    (htu : LeadsTo cmp t u) : LeadsTo cmp s u := by
  obtain ⟨m, hm⟩ := hst
  obtain ⟨n, hn⟩ := htu
  exact ⟨m + n, by rw [run_add, hm, Option.bind_some, hn]⟩

theorem leadsTo_of_step {cmp : Comparator σ α} {s t : Loops σ α} (h : s.step cmp = some t) :
    LeadsTo cmp s t :=
  ⟨1, by rw [run, h]; rfl⟩

/-- The end to which a state leads is where it is after any sufficient number of steps. -/
theorem LeadsTo.eq_of_end {cmp : Comparator σ α} {s t u : Loops σ α} (ht : LeadsTo cmp s t)
    (htg : t.gaps = []) {n : Nat} (hu : s.run cmp n = some u) (hug : u.gaps = []) : u = t := by
  obtain ⟨m, hm⟩ := ht
  have hmn : s.run cmp (m + n) = some t := by
    rw [run_add, hm, Option.bind_some, run_of_gaps_eq_nil cmp htg]
  have hnm : s.run cmp (n + m) = some u := by
    rw [run_add, hu, Option.bind_some, run_of_gaps_eq_nil cmp hug]
  rw [Nat.add_comm, hmn] at hnm
  exact (Option.some.inj hnm).symm

/-- A comparator that remembers how often it has been asked, and answers as another one does. -/
def counting (cmp : α → α → Ordering) : Comparator Nat α := fun a b asked => (cmp a b, asked + 1)

section Computes

variable {n : Nat} {cmp : α → α → Ordering}

/-- The loops while an item sinks. -/
def sinking (p : Progress α n) (gaps : List Nat) (i j : Nat) : Loops Nat α :=
  ⟨p.items.toArray, gaps, i, j, p.comparisons⟩

theorem exchange_sinking (p : Progress α n) (gaps : List Nat) (i : Nat) {gap j : Nat}
    (ha : j - gap < n) (hj : j < n) :
    ((sinking p gaps i j).exchange gap).remember (p.comparisons + 1) =
      sinking ⟨p.items.swap (j - gap) j, p.comparisons + 1⟩ gaps i (j - gap) := by
  have hsize : p.items.toArray.size = n := Vector.size_toArray _
  have hswap : p.items.toArray.swapIfInBounds (j - gap) j = (p.items.swap (j - gap) j).toArray := by
    rw [Array.swapIfInBounds_def, dif_pos (hsize.symm ▸ ha), dif_pos (hsize.symm ▸ hj),
      Vector.toArray_swap]
  simp only [sinking, exchange, remember, hswap]

/-- An item sinks in the loops as it does in the sort. -/
theorem leadsTo_sink (p : Progress α n) {gap : Nat} (positive : 0 < gap) (rest : List Nat)
    {i j : Nat} (hi : i < n) (hj : j < n) :
    LeadsTo (counting cmp) (sinking p (gap :: rest) i j)
      (sinking (sink cmp gap positive p j hj) (gap :: rest) (i + 1) (i + 1)) := by
  have hsize : p.items.toArray.size = n := Vector.size_toArray _
  induction j using Nat.strongRecOn generalizing p with
  | ind j ih =>
    have his : i < (sinking p (gap :: rest) i j).items.size := hsize.symm ▸ hi
    have hjs : j < (sinking p (gap :: rest) i j).items.size := hsize.symm ▸ hj
    rw [sink]
    by_cases hgap : gap ≤ j
    · have hstep : (sinking p (gap :: rest) i j).step (counting cmp) =
          some ((if cmp p.items[j - gap] p.items[j] = .gt then
            (sinking p (gap :: rest) i j).exchange gap else
            (sinking p (gap :: rest) i j).next).remember (p.comparisons + 1)) :=
        step_of_le rfl his hgap hjs rfl
      rw [dif_pos hgap]
      by_cases hgt : cmp p.items[j - gap] p.items[j] = .gt
      · rw [if_pos hgt] at hstep ⊢
        rw [exchange_sinking p _ i (by omega) hj] at hstep
        exact (leadsTo_of_step hstep).trans (ih (j - gap) (by omega) _ _ (Vector.size_toArray _))
      · rw [if_neg hgt] at hstep ⊢
        exact leadsTo_of_step hstep
    · rw [dif_neg hgap]
      exact leadsTo_of_step (step_of_lt rfl his (Nat.not_le.1 hgap))

/-- A pass of the loops is a pass of the sort, from whatever position it has come to. -/
theorem leadsTo_passFrom (p : Progress α n) {gap : Nat} (positive : 0 < gap) (rest : List Nat)
    (i : Nat) : LeadsTo (counting cmp) (sinking p (gap :: rest) i i)
      (atPass (passFrom cmp gap positive p i).items.toArray rest
        (passFrom cmp gap positive p i).comparisons) := by
  have hsize : p.items.toArray.size = n := Vector.size_toArray _
  induction h : n - i generalizing p i with
  | zero =>
    have his : (sinking p (gap :: rest) i i).items.size ≤ i := by
      rw [sinking, hsize]
      omega
    rw [passFrom, dif_neg (by omega)]
    exact leadsTo_of_step (step_at_end rfl his)
  | succ k ih =>
    have hi : i < n := by omega
    rw [passFrom, dif_pos hi]
    exact (leadsTo_sink p positive rest hi hi).trans
      (ih _ (i + 1) (Vector.size_toArray _) (by omega))

theorem leadsTo_passes (gaps : List Nat) (positive : ∀ gap ∈ gaps, 0 < gap) (p : Progress α n) :
    LeadsTo (counting cmp) (atPass p.items.toArray gaps p.comparisons)
      (atPass (gaps.foldl (pass cmp) p).items.toArray []
        (gaps.foldl (pass cmp) p).comparisons) := by
  induction gaps generalizing p with
  | nil => exact ⟨0, rfl⟩
  | cons gap rest ih =>
    rw [List.forall_mem_cons] at positive
    rw [List.foldl_cons, pass, dif_pos positive.1]
    exact (leadsTo_passFrom p positive.1 rest gap).trans (ih positive.2 _)

end Computes

/-- **The loops leave what the sort gives**, after as many comparisons as it counts. -/
theorem run_counting (cmp : α → α → Ordering) (items : List α) {n : Nat}
    (hn : longest items.length ShellSort.gaps ≤ n) :
    (start items 0).run (counting cmp) n =
      some (atPass (shellSort cmp items).toArray [] (shellSortComparisons cmp items)) := by
  obtain ⟨s, hrun, _, hend⟩ := run_start (counting cmp) items 0 n
  have hleads : LeadsTo (counting cmp) (start items 0)
      (atPass (shellSort cmp items).toArray [] (shellSortComparisons cmp items)) :=
    leadsTo_passes ShellSort.gaps gaps_positive ⟨items.toArray.toVector, 0⟩
  rw [hrun, hleads.eq_of_end rfl hrun (hend hn)]

end Loops

end ShellSort

/-! ## The whole sort -/

open ShellSort

/-- A list that is sorted well, whatever it is compared by: the loops end in range, lose and invent
nothing, and sort where the comparator orders. -/
structure SortsWell {α : Type} (items : List α) : Prop where
  /-- However the comparator answers, by a memory or not, no step reads out of range, the items are
  only permuted, and after so many steps no pass is left. -/
  safe : ∀ {σ : Type} (cmp : Comparator σ α) (memory : σ) (n : Nat),
    ∃ s, (Loops.start items memory).run cmp n = some s ∧ s.items.toList.Perm items ∧
      (longest items.length gaps ≤ n → s.gaps = [])
  /-- If the answers depend on the items alone, the loops leave what the sort gives, after the
  comparisons that it counts. -/
  computes : ∀ (cmp : α → α → Ordering) (n : Nat), longest items.length gaps ≤ n →
    ∃ s, (Loops.start items 0).run (Loops.counting cmp) n = some s ∧
      s.items.toList = shellSort cmp items ∧ s.memory = shellSortComparisons cmp items
  /-- The sort permutes the items, be the comparator consistent or not. -/
  perm : ∀ cmp : α → α → Ordering, (shellSort cmp items).Perm items
  /-- A total preorder orders them. -/
  ordered : ∀ (cmp : α → α → Ordering) [Std.TransCmp cmp],
    (shellSort cmp items).Pairwise fun a b => (cmp a b).isLE
  /-- If moreover no two of them compare equal, their first order does not matter. -/
  unique : ∀ (cmp : α → α → Ordering) [Std.TransCmp cmp],
    (∀ a ∈ items, ∀ b ∈ items, cmp a b = .eq → a = b) →
      ∀ items', items.Perm items' → shellSort cmp items' = shellSort cmp items

/-- **Every list is sorted well**, of whatever length, and with whatever items. -/
theorem sortsWell {α : Type} (items : List α) : SortsWell items where
  safe cmp memory n := by
    obtain ⟨s, hrun, hs, hend⟩ := Loops.run_start cmp items memory n
    exact ⟨s, hrun, hs.perm, hend⟩
  computes cmp _ hn := ⟨_, Loops.run_counting cmp items hn, rfl, rfl⟩
  perm cmp := perm_shellSort cmp items
  ordered cmp := pairwise_shellSort cmp items
  unique cmp _ hne _ hperm := (shellSort_congr_perm cmp hperm hne).symm

/-- A comparator that calls everything greater turns a short list round. -/
example : shellSort (fun _ _ => .gt) [1, 2, 3] = [3, 2, 1] := by decide +kernel

end Retrace
