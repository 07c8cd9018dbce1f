/-
# Loaded code is tracked exactly

A journal tracks a body if it can tell the parent of it, or that it has none.  What is tracked is what
has been registered, and what is nested, directly or not, in what a call has loaded with success since
code was last forgotten; and no more (`tracks_nestedCode`).  Bodies may be shared and may nest each
other, and what a body nests may come to light only when it is parsed, as long as it stays as it is
then (`CodeLoader.Settles`).

The calls of a history come with surroundings of their own.  They may be any that have come, by parsing
or otherwise, of those that the calls before have left (`History.LoadsWith`); those of calls made one
right after another are (`History.loadsWith_consecutive`).

This is what *force-load for tracking* is for (specification, section 4.2): the parents of every
nested body, transitively.
-/

import Mathlib.Data.Nat.Init
import Retrace.Proofs.Journal.CoveredCode
import Retrace.Proofs.Journal.KnownParents
import Retrace.Proofs.Journal.SearchLength

namespace Retrace

namespace Journal

variable {σ : Type} {loader : CodeLoader σ} {Later : σ → σ → Prop}

/-! ## Histories -/

namespace History

/-- A call is one of the first so many, and neither it nor any of them after it has forgotten code.
Only such calls still count. -/
def Recent (h : History σ) (m n : Nat) : Prop :=
  m < n ∧ ∀ k, m ≤ k → k < n → h.forgetsCode k = false

/-- Whether the next call loads a body, and succeeds. -/
def LoadsNext (h : History σ) (n : Nat) (body : BodyHandle) : Prop :=
  ∃ c, h.calls[n]? = some c ∧ c.1.Loads (h.journal n, c.2) body

/-- Whether a call since code was last forgotten has loaded a body, with success. -/
def Loaded (h : History σ) (n : Nat) (body : BodyHandle) : Prop :=
  ∃ m, h.Recent m n ∧ h.LoadsNext m body

/-- Whether a state may be what has become of all that the calls have left since code was last
forgotten. -/
def Follows (h : History σ) (Later : σ → σ → Prop) (n : Nat) (st : σ) : Prop :=
  ∀ m c, h.Recent m n → h.calls[m]? = some c → Later (c.1.run.after (h.journal m, c.2)).2 st

/-- The calls since code was last forgotten have been made with one loader, each in surroundings that
may be what has become of those that the calls before have left. -/
def LoadsWith (h : History σ) (loader : CodeLoader σ) (Later : σ → σ → Prop) (n : Nat) : Prop :=
  ∀ m c, h.Recent m n → h.calls[m]? = some c → c.1.Uses loader ∧ h.Follows Later m c.2

variable {h : History σ} {m n : Nat} {body : BodyHandle} {st : σ}

theorem recent_succ_iff : h.Recent m (n + 1) ↔
    h.forgetsCode n = false ∧ (m = n ∨ h.Recent m n) := by
  constructor
  · rintro ⟨hmn, hkept⟩
    refine ⟨hkept n (Nat.le_of_lt_succ hmn) (Nat.lt_succ_self n), ?_⟩
    exact (Nat.lt_succ_iff_lt_or_eq.1 hmn).symm.imp_right fun hmn =>
      ⟨hmn, fun k hmk hkn => hkept k hmk (Nat.lt_succ_of_lt hkn)⟩
  · rintro ⟨hn, rfl | ⟨hmn, hkept⟩⟩
    · refine ⟨Nat.lt_succ_self m, fun k hmk hkm => ?_⟩
      obtain rfl : k = m := Nat.le_antisymm (Nat.le_of_lt_succ hkm) hmk
      exact hn
    · refine ⟨Nat.lt_succ_of_lt hmn, fun k hmk hkn => ?_⟩
      rcases Nat.lt_succ_iff_lt_or_eq.1 hkn with hkn | rfl
      · exact hkept k hmk hkn
      · exact hn

theorem not_loaded_zero (h : History σ) (body : BodyHandle) : ¬h.Loaded 0 body :=
  fun ⟨_, hm, _⟩ => Nat.not_lt_zero _ hm.1

theorem not_loaded_of_forgetsCode (hf : h.forgetsCode n = true) (body : BodyHandle) :
    ¬h.Loaded (n + 1) body := by
  rintro ⟨m, hm, _⟩
  cases hf.symm.trans (recent_succ_iff.1 hm).1

theorem loaded_succ_iff (hf : h.forgetsCode n = false) (body : BodyHandle) :
    h.Loaded (n + 1) body ↔ h.LoadsNext n body ∨ h.Loaded n body := by
  simp only [Loaded, recent_succ_iff, hf, true_and, or_and_right, exists_or, exists_eq_left]

/-- **A journal tracks all that is nested in what has been loaded**, as long as the calls are made with
one loader that settles. -/
theorem covers (hl : loader.Settles Later) (hload : h.LoadsWith loader Later n)
    (hst : h.Follows Later n st) :
    Covers (loader.settled Later st) (h.Loaded n) (h.journal n) := by
  induction n generalizing st with
  | zero => exact (covers_fresh _ _).congr fun body => iff_false_intro (h.not_loaded_zero body)
  | succ n ih =>
    cases hf : h.forgetsCode n with
    | true =>
      have hnone := fun body => iff_false_intro (not_loaded_of_forgetsCode hf body)
      refine Covers.congr ?_ hnone
      rcases h.journal_succ n with ⟨hc, _⟩ | ⟨c, hc, hs⟩
      · rw [forgetsCode, hc] at hf
        cases hf
      · rw [h.forgetsCode_of_some hc] at hf
        rw [hs.eq_clearLoads hf]
        exact (covers_fresh _ (h.journal n).context).ofSameCode ⟨rfl, rfl, rfl, rfl⟩
    | false =>
      have hrecent : ∀ {m}, h.Recent m n → h.Recent m (n + 1) := fun hm =>
        recent_succ_iff.2 ⟨hf, .inr hm⟩
      have hn : h.Recent n (n + 1) := recent_succ_iff.2 ⟨hf, .inl rfl⟩
      have hload' : h.LoadsWith loader Later n := fun m c hm => hload m c (hrecent hm)
      cases hc : h.calls[n]? with
      | none =>
        rw [h.journal_succ_of_none hc]
        refine (ih hload' fun m c hm => hst m c (hrecent hm)).congr fun body => ?_
        rw [loaded_succ_iff hf, or_iff_right_iff_imp]
        rintro ⟨c, hc', _⟩
        cases hc.symm.trans hc'
      | some c =>
        obtain ⟨huses, hfollows⟩ := hload n c hn hc
        have hkept : c.1.forgetsCode = false := (h.forgetsCode_of_some hc).symm.trans hf
        have hafter := Covers.after (t := (h.journal n, c.2)) hl huses hkept (ih hload' hfollows)
        rw [h.journal_succ_of_some hc]
        refine (hafter.grow (hl.grows (hst n c hn hc))).congr fun body => ?_
        rw [loaded_succ_iff hf]
        simp [LoadsNext, hc]

/-! ### Calls made one right after another -/

section

variable {calls : List (Call σ)} (hl : loader.Settles Later) (hcalls : ∀ c ∈ calls, c.Uses loader)

include hl hcalls

theorem later_runAll_take {m n : Nat} (hmn : m ≤ n) (t : Journal × σ) :
    Later (runAll (calls.take m) t).2 (runAll (calls.take n) t).2 := by
  induction n, hmn using Nat.le_induction with
  | base => exact hl.refl _
  | succ n _ ih =>
    rw [runAll_take_succ]
    cases hc : calls[n]? with
    | none => exact ih
    | some c => exact hl.trans ih (Call.later_after hl (hcalls c (List.mem_of_getElem? hc)) _)

/-- Their last surroundings are what has become of all that they have left. -/
theorem follows_consecutive (ctx : ContextId) (st : σ) (n : Nat) :
    (consecutive ctx calls st).Follows Later n
      (runAll (calls.take n) ({ context := ctx }, st)).2 := by
  intro m c hm hc
  have hget := (getElem?_handOver calls ({ context := ctx }, st) m).symm.trans hc
  obtain ⟨d, hd, rfl⟩ := Option.map_eq_some_iff.1 hget
  have hlater := later_runAll_take hl hcalls (Nat.succ_le_of_lt hm.1) ({ context := ctx }, st)
  rw [runAll_take_succ, hd] at hlater
  rw [journal_consecutive]
  exact hlater

/-- **Calls made one right after another with one loader that settles** are made in what has become of
all that those before have left. -/
theorem loadsWith_consecutive (ctx : ContextId) (st : σ) (n : Nat) :
    (consecutive ctx calls st).LoadsWith loader Later n := by
  intro m c _ hc
  have hget := (getElem?_handOver calls ({ context := ctx }, st) m).symm.trans hc
  obtain ⟨d, hd, rfl⟩ := Option.map_eq_some_iff.1 hget
  exact ⟨hcalls d (List.mem_of_getElem? hd), follows_consecutive hl hcalls ctx st m⟩

end

end History

/-! ## What is tracked -/

/-- After a number of calls a journal tracks what it should of the code that a loader shows: all of
it, with parents, and nothing else. -/
structure Tracks (loader : CodeLoader σ) (Later : σ → σ → Prop) (h : History σ) (n : Nat) (st : σ) :
    Prop where
  /-- What is tracked is what has been registered, and what is nested, directly or not, in what has been
  loaded. -/
  knows : ∀ body, (h.journal n).Knows body ↔ body ∈ (h.registrations n).map (·.body) ∨
    ∃ outer, h.Loaded n outer ∧ Relation.TransGen (loader.Nests st) outer body
  /-- What is tracked and is not top-level code has a parent, which nests it directly. -/
  parent : ∀ body, (h.journal n).Knows body → (h.journal n).isTopLevel body = false →
    ∃ p, (h.journal n).parent body = .ok (some p) ∧ loader.Nests st p body
  /-- What is tracked has been parsed, and so has what has been loaded. -/
  parsed : ∀ body, (h.journal n).Knows body ∨ h.Loaded n body → loader.Parsed Later st body

section

variable {h : History σ} {n : Nat} {st : σ} {j : Journal} {loaded : BodyHandle → Prop}

/-- All that is nested in what has been loaded is tracked, directly or through others. -/
theorem Covers.contains_of_transGen (hcov : Covers (loader.settled Later st) loaded j)
    {outer inner : BodyHandle} (ho : loaded outer)
    (hw : Relation.TransGen (loader.Nests st) outer inner) : j.parents.contains inner = true := by
  induction hw with
  | single hi =>
    obtain ⟨hp, hc⟩ := hcov.opened outer ho
    rw [CodeLoader.not_refused_settled_iff] at hp
    exact hc _ (CodeLoader.nests_settled_iff.2 ⟨hp, hi⟩)
  | tail _ hi ih =>
    obtain ⟨hp, hc⟩ := hcov.closed.surveyed ih
    rw [CodeLoader.not_refused_settled_iff] at hp
    exact hc _ (CodeLoader.nests_settled_iff.2 ⟨hp, hi⟩)

theorem tracks_of_covers
    (hcov : Covers (loader.settled Later st) (h.Loaded n) (h.journal n)) :
    Tracks loader Later h n st where
  knows body := by
    rw [← h.isTopLevel_iff_registered n body, knows_iff]
    constructor
    · intro hb
      refine (hcov.within body hb).imp_right fun ⟨outer, ho, hw⟩ => ⟨outer, ho, ?_⟩
      exact Relation.TransGen.mono (fun _ _ hi => (CodeLoader.nests_settled_iff.1 hi).2) _ _ hw
    · rintro (htop | ⟨outer, ho, hw⟩)
      · exact OrderedMap.contains_of_get? (((h.codeInOrder n).parentless body).2 htop)
      · exact hcov.contains_of_transGen ho hw
  parent body hb htop := by
    obtain ⟨p, hp⟩ := hb
    have hget := (parent_eq_ok_iff _).1 hp
    cases p with
    | none =>
      rw [((h.codeInOrder n).parentless body).1 hget] at htop
      cases htop
    | some p => exact ⟨p, hp, (CodeLoader.nests_settled_iff.1 (hcov.nests body p hget)).2⟩
  parsed body hb := by
    rw [← CodeLoader.not_refused_settled_iff]
    rcases hb with hb | hb
    · exact (hcov.closed body ((knows_iff _ _).1 hb)).1
    · exact (hcov.opened body hb).1

end

/-- **Loaded code is tracked exactly.**  Let the calls since code was last forgotten be made with one
loader that settles, whichever of them fail and whatever else is called between.  Then the journal
tracks what has been registered and what is nested, directly or not, in what has been loaded with
success, and nothing else; a body that is tracked and is not top-level code has a parent that nests it
directly; and a search ends, however many handles there are, after as many bodies as may be nested in
the first one, and one.  If the loader is an arena, all that is tracked and all that has been loaded is
parsed.  Calls made one right after another are made so (`History.loadsWith_consecutive`). -/
theorem tracks_nestedCode :
    (∀ {σ : Type} {loader : CodeLoader σ} {Later : σ → σ → Prop}, loader.Settles Later →
      ∀ (h : History σ) (n : Nat) (st : σ), h.LoadsWith loader Later n → h.Follows Later n st →
        Tracks loader Later h n st ∧
          ∀ root (bodies : Finset BodyHandle),
            (∀ b, Relation.TransGen (loader.MayNest st) root b → b ∈ bodies) →
              SearchEndsWithin loader (h.journal n).parents.contains root st (bodies.card + 1)) ∧
      ∀ (h : History Arena) (n : Nat) (a : Arena), h.LoadsWith Arena.loader Arena.KeepsParsed n →
        h.Follows Arena.KeepsParsed n a →
          ∀ body, (h.journal n).Knows body ∨ h.Loaded n body → a.isParsed body = true := by
  have htracks {σ : Type} {loader : CodeLoader σ} {Later : σ → σ → Prop}
      (hl : loader.Settles Later) {h : History σ} {n : Nat} {st : σ}
      (hload : h.LoadsWith loader Later n) (hst : h.Follows Later n st) :
      Tracks loader Later h n st :=
    tracks_of_covers (History.covers hl hload hst)
  constructor
  · intro σ loader Later hl h n st hload hst
    exact ⟨htracks hl hload hst, fun root bodies => search_ends loader _ root st⟩
  · intro h n a hload hst body hb
    exact Arena.isParsed_of_parsed ((htracks Arena.loader_settles hload hst).parsed body hb)

/-- Two bodies that nest each other and are not parsed, a third that the second of them nests, and one
that nests the third, and one that is not there. -/
def knottedArena : Arena where
  bodies := #[{ deferred := true, nested := [⟨1⟩] }, { deferred := true, nested := [⟨0⟩, ⟨2⟩] }, {},
    { nested := [⟨2⟩, ⟨9⟩] }]

/-- The same bodies when they have been parsed. -/
def untiedArena : Arena where
  bodies := #[{ nested := [⟨1⟩] }, { nested := [⟨0⟩, ⟨2⟩] }, {}, { nested := [⟨2⟩, ⟨9⟩] }]
  parseCount := 2

/-- The last body is registered, which fails; then the second one is; then the first is loaded. -/
def knottedCalls : List (Call Arena) :=
  [.registerCode Arena.loader .script ⟨3⟩ 1, .registerCode Arena.loader .eval ⟨1⟩ 2,
    .forceLoad Arena.loader ⟨0⟩]

/-- What the second search finds. -/
def knottedParents : OrderedMap BodyHandle BodyHandle :=
  ((OrderedMap.empty.insert ⟨0⟩ ⟨1⟩).insert ⟨2⟩ ⟨1⟩).insert ⟨1⟩ ⟨0⟩

/-- The journal that the calls leave. -/
def knottedJournal : Journal :=
  (adopt { context := ⟨0⟩ } knottedParents).addLoad ⟨⟨1⟩, .eval, 2, none⟩

theorem runAll_knottedCalls : History.runAll knottedCalls ({ context := ⟨0⟩ }, knottedArena) =
    (knottedJournal, untiedArena) := by
  let fresh : Journal := { context := ⟨0⟩ }
  have h₁ : (Call.registerCode Arena.loader .script ⟨3⟩ 1).run.after (fresh, knottedArena) =
      (fresh, knottedArena) := by
    have hsearch : nestedParents Arena.loader fresh.parents.contains ⟨3⟩ knottedArena =
        .error (.notFound .functionBody (toString (⟨9⟩ : BodyHandle))) knottedArena :=
      Search.run_of_runUpTo_error (n := 2) rfl
    have he := registerCode_eq_error (t := (fresh, knottedArena)) rfl hsearch .script 1
    rw [Call.run, Action.after_map, Action.after_of_eq_error he]
  have h₂ : (Call.registerCode Arena.loader .eval ⟨1⟩ 2).run.after (fresh, knottedArena) =
      (knottedJournal, untiedArena) := by
    have hsearch : Search.runUpTo Arena.loader fresh.parents.contains 4 ⟨[⟨1⟩], .empty⟩
        knottedArena = .ok ⟨[], knottedParents⟩ untiedArena := rfl
    have he := registerCode_of_runUpTo (j := fresh) rfl hsearch .eval 2
    rw [Call.run, Action.after_map, Action.after_of_eq_ok he]
    rfl
  have h₃ : (Call.forceLoad Arena.loader ⟨0⟩).run.after (knottedJournal, untiedArena) =
      (knottedJournal, untiedArena) := by
    have hsearch : nestedParents Arena.loader knottedJournal.parents.contains ⟨0⟩ untiedArena =
        .ok .empty untiedArena :=
      Search.run_of_runUpTo (n := 1) rfl
    have he := forceLoad_of_nestedParents (t := (knottedJournal, untiedArena)) hsearch
    rw [Call.run, Action.after_map, Action.after_of_eq_ok he]
    rfl
  rw [History.runAll, knottedCalls, List.foldl_cons, h₁, List.foldl_cons, h₂, List.foldl_cons, h₃]
  rfl

/-- The history of these calls. -/
def knottedHistory : History Arena := .consecutive ⟨0⟩ knottedCalls knottedArena

theorem journal_knottedHistory : knottedHistory.journal 3 = knottedJournal :=
  (History.journal_consecutive _ _ _ 3).trans (congrArg Prod.fst runAll_knottedCalls)

theorem uses_knottedCalls : ∀ c ∈ knottedCalls, c.Uses Arena.loader := by
  intro c hc
  simp only [knottedCalls, List.mem_cons, List.not_mem_nil, or_false] at hc
  rcases hc with rfl | rfl | rfl <;> rfl

/-- In the first three bodies nothing is nested but these. -/
theorem mem_of_nested_in_knot {b : BodyHandle}
    (h : Relation.TransGen (Arena.loader.MayNest untiedArena) ⟨0⟩ b) :
    b ∈ ({⟨0⟩, ⟨1⟩, ⟨2⟩} : Finset BodyHandle) := by
  have hclosed : ∀ outer ∈ ({⟨0⟩, ⟨1⟩, ⟨2⟩} : Finset BodyHandle),
      ∀ inner ∈ untiedArena.code.nested outer, inner ∈ ({⟨0⟩, ⟨1⟩, ⟨2⟩} : Finset BodyHandle) := by
    decide
  have hnests {outer inner : BodyHandle} (hi : Arena.loader.MayNest untiedArena outer inner) :
      untiedArena.code.Nests outer inner :=
    (Arena.loader_shows untiedArena).nests_of_mayNest (fun _ => rfl) hi
  induction h with
  | single hi => exact hclosed _ (by decide) _ (hnests hi)
  | tail _ hi ih => exact hclosed _ ih _ (hnests hi)

/-- The two bodies that nest each other are tracked with what they nest; the one that could not be
registered is not. -/
theorem tracks_nestedCode_of_knot :
    knottedHistory.LoadsWith Arena.loader Arena.KeepsParsed 3 ∧
      knottedHistory.Follows Arena.KeepsParsed 3 untiedArena ∧
      Tracks Arena.loader Arena.KeepsParsed knottedHistory 3 untiedArena ∧
      (∀ body, (knottedHistory.journal 3).Knows body ∨ knottedHistory.Loaded 3 body →
        untiedArena.isParsed body = true) ∧
      SearchEndsWithin Arena.loader (knottedHistory.journal 3).parents.contains ⟨0⟩ untiedArena 4 ∧
      (knottedHistory.journal 3).parent ⟨0⟩ = .ok (some ⟨1⟩) ∧
      (knottedHistory.journal 3).parent ⟨1⟩ = .ok none ∧
      (knottedHistory.journal 3).parent ⟨2⟩ = .ok (some ⟨1⟩) ∧
      ¬(knottedHistory.journal 3).Knows ⟨3⟩ := by
  have hload : knottedHistory.LoadsWith Arena.loader Arena.KeepsParsed 3 :=
    History.loadsWith_consecutive Arena.loader_settles uses_knottedCalls _ _ 3
  have hst : knottedHistory.Follows Arena.KeepsParsed 3 untiedArena := by
    have hlast := History.follows_consecutive Arena.loader_settles uses_knottedCalls ⟨0⟩
      knottedArena 3
    rw [show knottedCalls.take 3 = knottedCalls from rfl, runAll_knottedCalls] at hlast
    exact hlast
  obtain ⟨htracks, hends⟩ :=
    tracks_nestedCode.1 Arena.loader_settles knottedHistory 3 untiedArena hload hst
  refine ⟨hload, hst, htracks, tracks_nestedCode.2 knottedHistory 3 untiedArena hload hst,
    hends ⟨0⟩ _ fun _ => mem_of_nested_in_knot, ?_⟩
  rw [journal_knottedHistory, knows_iff]
  exact ⟨rfl, rfl, rfl, by decide⟩

end Journal

end Retrace
