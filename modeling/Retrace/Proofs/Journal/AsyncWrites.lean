/-
# Asynchronous writes that land

A write that lands is told by its buffer and by the position at which it ended.  The journal does not
know where a write will end while it is in flight: it takes out the write into the buffer that starts
closest, at the position or before it (`completeWrite_eq_of_closest`).

| of the disjoint writes in flight into the buffer | the write taken out |
| --- | --- |
| none starts at the position | the one that ended there |
| one starts at the position | that one, as there is none closer |

So a write is mistaken for the one that comes right after it in the buffer, if both are in flight, and
for no other.  In whatever order disjoint writes land, each is taken out itself exactly if none lands
where another one starts (`landsRight_iff`).

The rule of the closest start is that of *complete async write* (specification, section 4.2); what
follows from it for writes that overlap nowhere is worked out here.
-/

import Retrace.Proofs.Journal.History

namespace Retrace

/-- The larger of two numbers is one of them, and is bounded as both are. -/
instance lawfulOrderMaxUInt64 : Std.LawfulOrderMax UInt64 :=
  .of_max_le_iff
    (fun a b c => by
      have hmax : max a b = if a ≤ b then b else a := rfl
      rw [hmax]
      split <;> simp only [UInt64.le_iff_toNat_le] at * <;> omega)
    (fun a b => by
      have hmax : max a b = if a ≤ b then b else a := rfl
      rw [hmax]
      split
      · exact .inr rfl
      · exact .inl rfl)

/-! ## Writes in flight -/

/-- An asynchronous write that has been scheduled, with the position at which it will end, which the
journal is not told before. -/
structure WriteInFlight extends AsyncWrite where
  /-- The position at which it will end. -/
  final : UInt64
deriving DecidableEq

namespace WriteInFlight

variable {v w : WriteInFlight}

/-- Whether a write goes to a position of its buffer: from its start, up to but not including its
end. -/
def Covers (w : WriteInFlight) (position : UInt64) : Prop :=
  w.start ≤ position ∧ position < w.final

/-- Whether no position of one buffer is written by both of two writes. -/
def Apart (v w : WriteInFlight) : Prop :=
  v.buffer = w.buffer → ∀ position, v.Covers position → ¬ w.Covers position

/-- Whether a write into a certain buffer ends at a certain position. -/
def endsAt (w : WriteInFlight) (buffer : ObjectHandle) (final : UInt64) : Bool :=
  w.buffer = buffer ∧ w.final = final

theorem endsAt_iff {buffer : ObjectHandle} {final : UInt64} (w : WriteInFlight) :
    w.endsAt buffer final = true ↔ w.buffer = buffer ∧ w.final = final :=
  decide_eq_true_iff

theorem Apart.symm (h : v.Apart w) : w.Apart v := fun hb p hw hv => h hb.symm p hv hw

/-- Of two writes apart into one buffer, neither of them empty, one ends before the other starts. -/
theorem Apart.le_or_le (h : v.Apart w) (hb : v.buffer = w.buffer) (hv : v.start < v.final)
    (hw : w.start < w.final) : v.final ≤ w.start ∨ w.final ≤ v.start := by
  by_cases hwv : w.start < v.final
  · by_cases hvw : v.start < w.final
    · -- The later start is a position of both.
      rcases UInt64.le_total v.start w.start with hle | hle
      · exact absurd ⟨UInt64.le_refl _, hw⟩ (h hb w.start ⟨hle, hwv⟩)
      · exact absurd ⟨hle, hvw⟩ (h hb v.start ⟨UInt64.le_refl _, hv⟩)
    · exact .inr (UInt64.not_lt.1 hvw)
  · exact .inl (UInt64.not_lt.1 hwv)

/-- Two writes are apart if one ends before the other starts. -/
theorem apart_of_le_or_le (h : v.buffer = w.buffer → v.final ≤ w.start ∨ w.final ≤ v.start) :
    v.Apart w := by
  intro hb p hv hw
  rcases h hb with hle | hle
  · exact UInt64.not_le.2 hv.2 (UInt64.le_trans hle hw.1)
  · exact UInt64.not_le.2 hw.2 (UInt64.le_trans hle hv.1)

end WriteInFlight

/-- Writes none of which is empty, and no two of which write a position of one buffer both. -/
structure DisjointWrites (writes : List WriteInFlight) : Prop where
  /-- Each ends after it starts. -/
  nonempty : ∀ w ∈ writes, w.start < w.final
  /-- Any two are apart. -/
  apart : writes.Pairwise WriteInFlight.Apart

/-- Writes are disjoint exactly if each ends after it starts, and of any two into one buffer one ends
before the other starts. -/
theorem disjointWrites_iff {writes : List WriteInFlight} :
    DisjointWrites writes ↔ (∀ w ∈ writes, w.start < w.final) ∧
      writes.Pairwise fun v w => v.buffer = w.buffer → v.final ≤ w.start ∨ w.final ≤ v.start := by
  constructor
  · intro h
    exact ⟨h.nonempty, h.apart.imp_of_mem fun hv hw hapart hb =>
      hapart.le_or_le hb (h.nonempty _ hv) (h.nonempty _ hw)⟩
  · exact fun h => ⟨h.1, h.2.imp WriteInFlight.apart_of_le_or_le⟩

instance (writes : List WriteInFlight) : Decidable (DisjointWrites writes) :=
  decidable_of_iff _ disjointWrites_iff.symm

/-- Of disjoint writes, one lies before or after each of the others into its buffer. -/
theorem DisjointWrites.exists_append {writes : List WriteInFlight} (h : DisjointWrites writes)
    {w : WriteInFlight} (hw : w ∈ writes) :
    ∃ before after, writes = before ++ w :: after ∧ ∀ v ∈ before ++ after, v.buffer = w.buffer →
      v.start < v.final ∧ (v.final ≤ w.start ∨ w.final ≤ v.start) := by
  obtain ⟨before, after, rfl⟩ := List.append_of_mem hw
  refine ⟨before, after, rfl, fun v hv hb => ?_⟩
  have hapart := (List.pairwise_cons.1 ((List.pairwise_middle .symm).1 h.apart)).1 v hv
  have hlt := h.nonempty v (List.perm_middle.mem_iff.2 (List.mem_cons_of_mem w hv))
  exact ⟨hlt, hapart.symm.le_or_le hb hlt (h.nonempty w hw)⟩

namespace Journal

variable {σ : Type} {j : Journal}

/-! ## The write taken out -/

/-- **The write that starts closest is taken out**, and nothing else of what is in flight. -/
theorem completeWrite_eq_of_closest {w : AsyncWrite} {final : UInt64} (hw : w ∈ j.pending)
    (hle : w.start ≤ final)
    (hclosest : ∀ v ∈ j.pending, v.buffer = w.buffer → v.start ≤ final → v.start ≤ w.start) :
    completeWrite w.buffer final j =
      .ok ⟨w.buffer, w.start, final⟩ { j with pending := j.pending.erase w } := by
  have hmax : (j.candidateStarts w.buffer final).max? = some w.start := by
    simp only [candidateStarts, List.max?_eq_some_iff, List.mem_map, List.mem_filter,
      decide_eq_true_eq]
    refine ⟨⟨w, ⟨hw, rfl, hle⟩, rfl⟩, ?_⟩
    rintro _ ⟨v, ⟨hv, hb, hs⟩, rfl⟩
    exact hclosest v hv hb hs
  unfold completeWrite
  rw [hmax]

variable {writes : List WriteInFlight}

/-- **Of disjoint writes the one that ended is taken out**, if none of the others starts where it
ended. -/
theorem completeWrite_of_disjoint (hd : DisjointWrites writes)
    (hj : j.pending = writes.map (·.toAsyncWrite)) {w : WriteInFlight} (hw : w ∈ writes)
    (hnone : ∀ v ∈ writes, v.buffer = w.buffer → v.start ≠ w.final) :
    ∃ before after, writes = before ++ w :: after ∧
      (writes.eraseP fun v => v.endsAt w.buffer w.final) = before ++ after ∧
      completeWrite w.buffer w.final j = .ok ⟨w.buffer, w.start, w.final⟩
        { j with pending := (before ++ after).map (·.toAsyncWrite) } := by
  have hself : w.start < w.final := hd.nonempty w hw
  obtain ⟨before, after, rfl, hothers⟩ := hd.exists_append hw
  refine ⟨before, after, rfl, ?_, ?_⟩
  · have hends : ∀ v ∈ before, ¬ v.endsAt w.buffer w.final = true := by
      intro v hv he
      obtain ⟨hb, hf⟩ := (WriteInFlight.endsAt_iff v).1 he
      have hv := hothers v (List.mem_append_left _ hv) hb
      grind
    have hself : w.endsAt w.buffer w.final = true := (WriteInFlight.endsAt_iff w).2 ⟨rfl, rfl⟩
    rw [List.eraseP_append_right _ hends, List.eraseP_cons, hself, cond_true]
  · have hstarts : w.toAsyncWrite ∉ before.map (·.toAsyncWrite) := by
      intro hm
      obtain ⟨v, hv, he⟩ := List.mem_map.1 hm
      have hb : v.buffer = w.buffer := congrArg AsyncWrite.buffer he
      have hs : v.start = w.start := congrArg AsyncWrite.start he
      have hv := hothers v (List.mem_append_left _ hv) hb
      grind
    have herase : j.pending.erase w.toAsyncWrite = (before ++ after).map (·.toAsyncWrite) := by
      rw [hj, List.map_append, List.map_cons, List.erase_append_right _ hstarts,
        List.erase_cons_head, List.map_append]
    rw [← herase]
    refine completeWrite_eq_of_closest ?_ (UInt64.le_of_lt hself) fun x hx hb hle => ?_
    · rw [hj]
      exact List.mem_map_of_mem hw
    · rw [hj] at hx
      obtain ⟨v, hv, rfl⟩ := List.mem_map.1 hx
      have hne := hnone v hv hb
      rcases List.mem_cons.1 (List.perm_middle.mem_iff.1 hv) with rfl | hv
      · exact UInt64.le_refl _
      · -- It starts before the position, so it does not come after the write that ended there.
        have hv := hothers v hv hb
        grind

/-- A write that starts where another one ends is taken out in place of that. -/
theorem completeWrite_at_start {v : AsyncWrite} (hv : v ∈ j.pending) :
    completeWrite v.buffer v.start j =
      .ok ⟨v.buffer, v.start, v.start⟩ { j with pending := j.pending.erase v } :=
  completeWrite_eq_of_closest hv (UInt64.le_refl _) fun _ _ _ hle => hle

/-! ## The writes in flight in a history -/

/-- The writes in flight after a call; what it schedules will end at the position given. -/
def Call.inFlight (c : Call σ) (final : UInt64) (writes : List WriteInFlight) :
    List WriteInFlight :=
  match c with
  | scheduleWrite buffer start => writes ++ [⟨⟨buffer, start⟩, final⟩]
  | completeWrite buffer final => writes.eraseP fun w => w.endsAt buffer final
  | clearPending => []
  | _ => writes

/-- All calls but one keep account of the writes in flight; that one is a write that lands. -/
theorem Call.pending_after {c : Call σ} (hc : ∀ buffer final, c ≠ .completeWrite buffer final)
    (final : UInt64) {t : Journal × σ} (ht : t.1.pending = writes.map (·.toAsyncWrite)) :
    (c.run.after t).1.pending = (c.inFlight final writes).map (·.toAsyncWrite) := by
  cases c with
  | scheduleWrite buffer start =>
    rw [Call.inFlight, List.map_append, ← ht]
    rfl
  | completeWrite buffer final => exact absurd rfl (hc buffer final)
  | clearPending => rfl
  | registerCode loader origin body counter =>
    rw [Call.run, Action.after_map]
    exact (registerCode_keeps (f := pending) (fun _ _ => rfl) (fun _ _ => rfl) _ _ _ _ t).trans ht
  | forceLoad loader body =>
    rw [Call.run, Action.after_map]
    exact (forceLoad_keeps (f := pending) (fun _ _ => rfl) _ _ t).trans ht
  | clearLoads | pinWeak => exact ht
  | unpinWeak obj =>
    rw [Call.run, Action.after_map_beside]
    exact ht

namespace History

/-- The writes in flight after a number of calls of a history, if the writes that these schedule end
where they are said to. -/
def inFlight (h : History σ) (finals : Nat → UInt64) : Nat → List WriteInFlight
  | 0 => []
  | n + 1 =>
    match h.calls[n]? with
    | some c => c.1.inFlight (finals n) (h.inFlight finals n)
    | none => h.inFlight finals n

/-- Whether the writes in flight are disjoint at all times of the first so many calls, and nothing
lands but writes in flight, each where it ends. -/
structure WritesDisjoint (h : History σ) (finals : Nat → UInt64) (n : Nat) : Prop where
  /-- The writes in flight are disjoint at all times. -/
  disjoint : ∀ m ≤ n, DisjointWrites (h.inFlight finals m)
  /-- What lands is a write in flight, so none lands twice. -/
  owned : ∀ m < n, ∀ buffer final st, h.calls[m]? = some (.completeWrite buffer final, st) →
    ∃ w ∈ h.inFlight finals m, w.buffer = buffer ∧ w.final = final

/-- Whether the write that lands next is told from the others: the call succeeds and answers where
that write started, and no other write leaves the journal. -/
def LandsRight (h : History σ) (finals : Nat → UInt64) (n : Nat) : Prop :=
  ∀ buffer final st, h.calls[n]? = some (.completeWrite buffer final, st) →
    ∀ w ∈ h.inFlight finals n, w.buffer = buffer → w.final = final → ∃ before after,
      (h.journal n).pending = before ++ w.toAsyncWrite :: after ∧
      (Call.completeWrite buffer final).run (h.journal n, st) =
        .ok (.landed ⟨buffer, w.start, final⟩) ({ h.journal n with pending := before ++ after }, st)

/-- Whether the next call tells that a write has landed where another one in flight starts. -/
def LandsAtStart (h : History σ) (finals : Nat → UInt64) (n : Nat) : Prop :=
  ∃ buffer final st, h.calls[n]? = some (.completeWrite buffer final, st) ∧
    ∃ v ∈ h.inFlight finals n, v.buffer = buffer ∧ v.start = final

variable {h : History σ} {finals : Nat → UInt64} {n : Nat}

/-- While the journal has the writes in flight, a write that lands where none starts is told from the
others, and the journal has those in flight afterwards. -/
theorem completeWrite_of_not_landsAtStart (hd : DisjointWrites (h.inFlight finals n))
    (hj : (h.journal n).pending = (h.inFlight finals n).map (·.toAsyncWrite))
    (hnot : ¬ h.LandsAtStart finals n) {w : WriteInFlight} (hw : w ∈ h.inFlight finals n) {st : σ}
    (hc : h.calls[n]? = some (.completeWrite w.buffer w.final, st)) :
    ∃ before after, h.inFlight finals n = before ++ w :: after ∧
      h.inFlight finals (n + 1) = before ++ after ∧
      (Call.completeWrite w.buffer w.final).run (h.journal n, st) =
        .ok (.landed ⟨w.buffer, w.start, w.final⟩)
          ({ h.journal n with pending := (before ++ after).map (·.toAsyncWrite) }, st) := by
  have hnone : ∀ v ∈ h.inFlight finals n, v.buffer = w.buffer → v.start ≠ w.final :=
    fun v hv hb hs => hnot ⟨_, _, st, hc, v, hv, hb, hs⟩
  obtain ⟨before, after, he, hrest, hok⟩ := completeWrite_of_disjoint hd hj hw hnone
  refine ⟨before, after, he, ?_, (Action.map_beside_eq_ok_iff _ _).2 ⟨_, _, hok, rfl, rfl⟩⟩
  rw [inFlight, hc]
  exact hrest

/-- **As long as no write lands where another one starts, the journal has the writes in flight.** -/
theorem pending_eq (hd : h.WritesDisjoint finals n) {m : Nat} (hm : m ≤ n)
    (hnot : ∀ k < m, ¬ h.LandsAtStart finals k) :
    (h.journal m).pending = (h.inFlight finals m).map (·.toAsyncWrite) := by
  induction m with
  | zero => rfl
  | succ m ih =>
    have hj := ih (by omega) fun k hk => hnot k (by omega)
    cases hc : h.calls[m]? with
    | none =>
      rw [h.journal_succ_of_none hc, inFlight, hc]
      exact hj
    | some c =>
      obtain ⟨call, st⟩ := c
      by_cases hcall : ∃ buffer final, call = .completeWrite buffer final
      · obtain ⟨buffer, final, rfl⟩ := hcall
        obtain ⟨w, hw, rfl, rfl⟩ := hd.owned m (by omega) _ _ _ hc
        obtain ⟨before, after, _, hrest, hok⟩ := completeWrite_of_not_landsAtStart
          (hd.disjoint m (by omega)) hj (hnot m (by omega)) hw hc
        rw [h.journal_succ_of_some hc, Action.after_of_eq_ok hok, hrest]
      · rw [h.journal_succ_of_some hc, inFlight, hc]
        exact Call.pending_after (fun buffer final he => hcall ⟨buffer, final, he⟩) _ hj

theorem landsRight_of_not_landsAtStart (hd : DisjointWrites (h.inFlight finals n))
    (hj : (h.journal n).pending = (h.inFlight finals n).map (·.toAsyncWrite))
    (hnot : ¬ h.LandsAtStart finals n) : h.LandsRight finals n := by
  rintro _ _ st hc w hw rfl rfl
  obtain ⟨before, after, he, _, hok⟩ := completeWrite_of_not_landsAtStart hd hj hnot hw hc
  refine ⟨before.map (·.toAsyncWrite), after.map (·.toAsyncWrite), ?_, ?_⟩
  · rw [hj, he, List.map_append, List.map_cons]
  · rw [hok, List.map_append]

/-- Where a write lands at the start of another one, that one is taken for it. -/
theorem not_landsRight_of_landsAtStart (hd : h.WritesDisjoint finals n) {m : Nat} (hm : m < n)
    (hj : (h.journal m).pending = (h.inFlight finals m).map (·.toAsyncWrite))
    (hstart : h.LandsAtStart finals m) : ¬ h.LandsRight finals m := by
  obtain ⟨_, _, st, hc, v, hv, rfl, rfl⟩ := hstart
  obtain ⟨w, hw, hb, hf⟩ := hd.owned m hm _ _ _ hc
  intro hright
  obtain ⟨before, after, _, hok⟩ := hright _ _ _ hc w hw hb hf
  have hmem : v.toAsyncWrite ∈ (h.journal m).pending := by
    rw [hj]
    exact List.mem_map_of_mem hv
  obtain ⟨_, _, htaken, hanswer, _⟩ := (Action.map_beside_eq_ok_iff _ _).1 hok
  cases (completeWrite_at_start hmem).symm.trans htaken
  have hs : v.start = w.start := congrArg CompletedWrite.start (Answer.landed.inj hanswer)
  have hlt := (hd.disjoint m (Nat.le_of_lt hm)).nonempty w hw
  rw [hf, hs] at hlt
  exact UInt64.lt_irrefl _ hlt

end History

/-- **Each write is told from the others when it lands, in whatever order they land**, exactly if none
lands where another one in flight into its buffer starts.  This is for histories in which at all times
the writes in flight are disjoint and only such writes land; other calls may be made in between, and
may fail. -/
theorem landsRight_iff {h : History σ} {finals : Nat → UInt64} {n : Nat}
    (hd : h.WritesDisjoint finals n) :
    (∀ m < n, h.LandsRight finals m) ↔ ∀ m < n, ¬ h.LandsAtStart finals m := by
  constructor
  · intro hright m
    -- Up to the first write that lands at the start of another one the journal has what is in flight.
    induction m using Nat.strongRecOn with
    | ind m ih =>
      intro hm hstart
      have hj := History.pending_eq hd (Nat.le_of_lt hm) fun k hk => ih k hk (by omega)
      exact History.not_landsRight_of_landsAtStart hd hm hj hstart (hright m hm)
  · intro hnot m hm
    have hj := History.pending_eq hd (Nat.le_of_lt hm) fun k hk => hnot k (by omega)
    exact History.landsRight_of_not_landsAtStart (hd.disjoint m (by omega)) hj (hnot m hm)

/-- Two writes into one buffer, of which the second starts where the first ends, and one into another
buffer that starts there too; then some of the writes into the first buffer land. -/
def adjoining (landing : List UInt64) : History Unit where
  context := ⟨0⟩
  calls := (.scheduleWrite ⟨7⟩ 0, ()) :: (.scheduleWrite ⟨7⟩ 64, ()) ::
    (.scheduleWrite ⟨8⟩ 64, ()) :: landing.map fun final => (.completeWrite ⟨7⟩ final, ())

/-- Where the writes end that `adjoining` schedules. -/
def adjoiningFinals (m : Nat) : UInt64 := [64, 128, 65].getD m 0

/-- The second write lands first, where no other one starts, and then the first: both are told from
each other and from the write into the other buffer. -/
theorem landsRight_of_last_first :
    (adjoining [128, 64]).WritesDisjoint adjoiningFinals 5 ∧
      (∀ m < 5, (adjoining [128, 64]).LandsRight adjoiningFinals m) ∧
      (adjoining [128, 64]).inFlight adjoiningFinals 5 = [⟨⟨⟨8⟩, 64⟩, 65⟩] := by
  have hd : (adjoining [128, 64]).WritesDisjoint adjoiningFinals 5 := by
    refine ⟨by decide +kernel, fun m hm buffer final st hc => ?_⟩
    match m, hm, hc with
    | 3, _, rfl => exact ⟨⟨⟨⟨7⟩, 64⟩, 128⟩, by decide +kernel, rfl, rfl⟩
    | 4, _, rfl => exact ⟨⟨⟨⟨7⟩, 0⟩, 64⟩, by decide +kernel, rfl, rfl⟩
  have hthree : ∀ v ∈ (adjoining [128, 64]).inFlight adjoiningFinals 3,
      ¬ (v.buffer = ⟨7⟩ ∧ v.start = 128) := by decide +kernel
  have hfour : ∀ v ∈ (adjoining [128, 64]).inFlight adjoiningFinals 4,
      ¬ (v.buffer = ⟨7⟩ ∧ v.start = 64) := by decide +kernel
  have hnot : ∀ m < 5, ¬ (adjoining [128, 64]).LandsAtStart adjoiningFinals m := by
    rintro m hm ⟨buffer, final, st, hc, v, hv, hb, hs⟩
    match m, hm, hc with
    | 3, _, rfl => exact hthree v hv ⟨hb, hs⟩
    | 4, _, rfl => exact hfour v hv ⟨hb, hs⟩
  exact ⟨hd, (landsRight_iff hd).2 hnot, by decide +kernel⟩

/-- The first write lands first, where the second one starts, and the second one is taken for it. -/
theorem neighbour_taken :
    (adjoining [64]).WritesDisjoint adjoiningFinals 4 ∧
      ¬ (adjoining [64]).LandsRight adjoiningFinals 3 ∧
      ∃ j, (Call.completeWrite ⟨7⟩ 64).run ((adjoining [64]).journal 3, ()) =
          .ok (.landed ⟨⟨7⟩, 64, 64⟩) (j, ()) ∧ j.pending = [⟨⟨7⟩, 0⟩, ⟨⟨8⟩, 64⟩] := by
  have hd : (adjoining [64]).WritesDisjoint adjoiningFinals 4 := by
    refine ⟨by decide +kernel, fun m hm buffer final st hc => ?_⟩
    match m, hm, hc with
    | 3, _, rfl => exact ⟨⟨⟨⟨7⟩, 0⟩, 64⟩, by decide +kernel, rfl, rfl⟩
  refine ⟨hd, fun hright => ?_, _, rfl, rfl⟩
  obtain ⟨_, _, _, hok⟩ := hright ⟨7⟩ 64 () rfl ⟨⟨⟨7⟩, 0⟩, 64⟩ (by decide +kernel) rfl rfl
  cases hok

end Journal

end Retrace
