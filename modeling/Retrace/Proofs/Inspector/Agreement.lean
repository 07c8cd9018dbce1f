/-
# Printing and verifying agree

The inspector works out the paths of an image in two ways:

| command | paths | room set aside | prints |
| --- | --- | --- | --- |
| `paths` | once, by a registry that keeps them | for contexts, and for paths | each with its kind |
| `verify` | twice, on its own, and compares them | for paths | how many of each kind there are |

The registry could refuse its configuration, but not one that has been read, for reading refuses it
first (`validate_of_load`).  As long as there can be room for the contexts that the configuration
allows, both come down to naming what is in the image (`printPaths_of_fits`, `verifyImage_eq`).  The
counts are those of the names, and the entries that are printed are the same names in another order
(`CorePaths.perm_sorted`).  What comes out twice is never found to differ.

But a configuration may allow for any number of contexts.  If there cannot be room for so many, the
registry breaks off, although it was to track none (`printPaths_of_not_fits`).  Then the commands
disagree just about images that can be named (`commandsAgree_iff`, `disagree_besideWide`).

Both commands are those of the command-line tool (specification, section 10), of which the one is to
check what the other prints.
-/

import Retrace.Inspector
import Retrace.Proofs.Arena.SafeWalks
import Retrace.Proofs.CorePaths.SortedPaths
import Retrace.Proofs.Inspector.Arguments
import Retrace.Proofs.Json.Arena
import Retrace.Proofs.Registry.Effects
import Retrace.Proofs.Toml.Config

namespace Retrace

/-! ## Counts -/

namespace CorePaths

/-- Entries by kind are all entries, as each is of one of the kinds. -/
theorem perm_byKind (named : List CorePath) :
    (named.filter (·.target.isObject) ++ named.filter (·.target.isBody) ++
      named.filter (·.target.isScope)).Perm named := by
  induction named with
  | nil => exact .nil
  | cons e rest ih =>
    obtain ⟨path, t⟩ := e
    cases t with
    | object obj => exact ih.cons _
    | body body =>
      rw [List.append_assoc] at ih ⊢
      exact List.perm_middle.trans (ih.cons _)
    | scope scope => exact List.perm_middle.trans (ih.cons _)

/-- **The sorted entries are those that were named**, in another order and each as often. -/
theorem perm_sorted (named : List CorePath) : (ofNamed named).sorted.Perm named := by
  refine .trans ?_ (perm_byKind named)
  exact ((NameIndex.perm_build _).append (NameIndex.perm_build _)).append (NameIndex.perm_build _)

/-- How many sorted entries have a certain word for their kind, as one would count the lines that
are printed. -/
def countOf (word : String) (p : CorePaths) : Nat :=
  (p.sorted.map fun e => Inspector.kindOf e.target).count word

/-- The entries with a word are counted as those of the kind are. -/
theorem countOf_ofNamed {word : String} {kind : CoreTarget → Bool}
    (hword : ∀ t, (Inspector.kindOf t == word) = kind t) (named : List CorePath) :
    (ofNamed named).countOf word = named.countP (kind ·.target) := by
  rw [countOf, ((perm_sorted named).map _).count_eq, List.count, List.countP_map]
  exact List.countP_congr fun e _ => by rw [Function.comp_apply, hword]

theorem countOf_object (named : List CorePath) :
    (ofNamed named).countOf "object" = (ofNamed named).objectCount :=
  countOf_ofNamed (fun t => by cases t <;> rfl) named

theorem countOf_body (named : List CorePath) :
    (ofNamed named).countOf "body" = (ofNamed named).bodyCount :=
  countOf_ofNamed (fun t => by cases t <;> rfl) named

theorem countOf_scope (named : List CorePath) :
    (ofNamed named).countOf "scope" = (ofNamed named).scopeCount :=
  countOf_ofNamed (fun t => by cases t <;> rfl) named

end CorePaths

namespace Inspector

variable {around : Surroundings} {file image : String}

/-! ## Both commands by the names in the image -/

/-- What is loaded as a configuration can be worked with, as whatever cannot is refused in
loading. -/
theorem validate_of_load {content : Option String} {c : Config}
    (h : Config.load content = .ok c) : c.validate = .ok () := by
  unfold Config.load at h
  split at h
  · cases h
    rfl
  · split at h
    · cases h
    · split at h
      · next hvalid =>
        cases h
        exact hvalid
      · cases h

/-- Whether a failure is that two runs differ, in which paths there are or in their order. -/
def Failure.IsDifference : Failure → Prop
  | .pathsDiffer _ | .orderDiffers => True
  | _ => False

/-- **A configuration that is read can be worked with**, and what goes wrong when it is read has
nothing to do with any paths. -/
theorem loadConfig_cases (around : Surroundings) (file : String) :
    (∃ c, loadConfig around file = .ok c ∧ c.validate = .ok ()) ∨
      ∃ f, loadConfig around file = .error f ∧ ¬f.IsDifference := by
  unfold loadConfig
  dsimp only
  split
  · exact .inl ⟨{}, rfl, rfl⟩
  · exact .inr ⟨_, rfl, id⟩
  · split
    · next c hload => exact .inl ⟨c, rfl, validate_of_load hload⟩
    · exact .inr ⟨_, rfl, id⟩
    · exact .inr ⟨_, rfl, id⟩

/-- A registry that can be created works the paths out as a walk on its own does. -/
theorem corePaths_of_fits {c : Config} (h : c.validate = .ok ())
    (hroom : ∀ room ∈ Registry.rooms c, room.Fits) (a : Arena) (roots : List NamedRoot) :
    corePaths c a roots = asFailure (CorePaths.buildFor c a.image roots) := by
  have hcreate : Registry.create c = .ok { config := c, nextId := c.firstLogId } :=
    Registry.create_eq_ok_iff.2 ⟨⟨h, hroom⟩, rfl⟩
  rw [corePaths, hcreate]
  simp only [asFailure, bind, Except.bind, Registry.ensureCorePaths]
  cases CorePaths.buildFor c a.image roots <;> rfl

/-- **Printing names what is in the image**, by a registry that does not refuse. -/
theorem printPaths_of_fits {c : Config} (h : c.validate = .ok ())
    (hroom : ∀ room ∈ Registry.rooms c, room.Fits) (file : String) :
    printPaths around c file [] =
      (nameImage around c file).map fun p => String.join ((pathLines p).map (· ++ "\n")) := by
  unfold printPaths nameImage
  cases loadImage around file with
  | error e => rfl
  | ok a =>
    simp only [bind, Except.bind, selectRoots, if_true, corePaths_of_fits h hroom]
    cases asFailure (CorePaths.buildFor c a.image a.roots) <;> rfl

/-- **Printing breaks off, or fails before**, if there cannot be room for the contexts: no matter what
is in the image, and although no context is tracked. -/
theorem printPaths_of_not_fits {c : Config} (h : c.validate = .ok ())
    (hroom : ¬∀ room ∈ Registry.rooms c, room.Fits) (file : String) :
    (∃ f, loadImage around file = .error f ∧ printPaths around c file [] = .error f) ∨
      ∃ room ∈ Registry.rooms c, ¬room.Fits ∧
        printPaths around c file [] = .error (.paths (.noRoom room)) := by
  rcases setAside_cases (Registry.rooms c) with ⟨_, hall⟩ | ⟨room, hmem, hnot, hset⟩
  · exact absurd hall hroom
  · unfold printPaths
    cases loadImage around file with
    | error f => exact .inl ⟨f, rfl, rfl⟩
    | ok a =>
      have hcreate : Registry.create c = .error (.noRoom room) := by
        rw [Registry.create, h, hset]
        rfl
      refine .inr ⟨room, hmem, hnot, ?_⟩
      simp only [bind, Except.bind, selectRoots, if_true, corePaths, hcreate, asFailure]

theorem compareRuns_self (p : CorePaths) : compareRuns p p = .ok () := by
  simp [compareRuns]

/-- **Verifying names what is in the image**, and finds no difference, since the second time it
reads and names the same. -/
theorem verifyImage_eq (around : Surroundings) (c : Config) (file : String) :
    verifyImage around c file = (nameImage around c file).map fun p =>
      s!"ok: {p.objectCount} objects, {p.bodyCount} bodies, {p.scopeCount} scopes\n" := by
  unfold verifyImage
  cases nameImage around c file with
  | error e => rfl
  | ok p => simp [compareRuns_self, bind, Except.bind, Except.map, pure, Except.pure]

theorem loadImage_of_text {content : String} {a : Arena} (h : around.read file = .text content)
    (ha : Arena.ofDescription content = .ok a) : loadImage around file = .ok a := by
  unfold loadImage
  rw [h]
  simp only [ha]

theorem nameImage_of_build {c : Config} {a : Arena} {p : CorePaths}
    (h : loadImage around file = .ok a) (hroom : ∀ room ∈ CorePaths.rooms c, room.Fits)
    (hp : CorePaths.build a.image a.roots = .ok p) : nameImage around c file = .ok p := by
  rw [nameImage, h]
  simp only [bind, Except.bind, CorePaths.buildFor_of_fits hroom, hp, asFailure]

/-- An image is read and named, or what goes wrong has nothing to do with any difference. -/
theorem nameImage_cases (around : Surroundings) (c : Config) (file : String) :
    (∃ a named, loadImage around file = .ok a ∧
        CorePaths.build a.image a.roots = .ok (.ofNamed named) ∧
        nameImage around c file = .ok (.ofNamed named)) ∨
      ∃ f, nameImage around c file = .error f ∧ ¬f.IsDifference := by
  unfold nameImage
  cases hload : loadImage around file with
  | error f =>
    refine .inr ⟨f, rfl, ?_⟩
    unfold loadImage at hload
    split at hload
    · split at hload <;> cases hload <;> exact id
    · cases hload
      exact id
  | ok a =>
    simp only [bind, Except.bind, CorePaths.buildFor]
    rcases setAside_cases (CorePaths.rooms c) with ⟨hset, _⟩ | ⟨room, _, _, hset⟩
    · rw [hset]
      cases hbuild : CorePaths.build a.image a.roots with
      | error e => exact .inr ⟨.paths e, rfl, id⟩
      | ok p =>
        obtain ⟨w, _, rfl⟩ := CorePaths.build_eq_ok_iff.1 hbuild
        exact .inl ⟨a, w.named, rfl, hbuild, rfl⟩
    · rw [hset]
      exact .inr ⟨.paths (.noRoom room), rfl, id⟩

/-! ## The two commands -/

/-- How two runs of the inspector agree, of which one has verified an image and the other has
printed its paths. -/
structure Agreement (around : Surroundings) (image : String) (verified printed : Outcome) :
    Prop where
  /-- Either both succeed or none. -/
  succeed : verified.status = 0 ↔ printed.status = 0
  /-- If they succeed, the paths that are printed are as many of each kind as are counted. -/
  counts : verified.status = 0 → ∃ a p, loadImage around image = .ok a ∧
    CorePaths.build a.image a.roots = .ok p ∧
    printed.output = String.join ((pathLines p).map (· ++ "\n")) ∧
    let objects := p.countOf "object"
    let bodies := p.countOf "body"
    let scopes := p.countOf "scope"
    verified.output = s!"ok: {objects} objects, {bodies} bodies, {scopes} scopes\n"
  /-- The paths are never said to differ. -/
  samePaths : ∀ paths, verified.failure ≠ some (.pathsDiffer paths)
  /-- Nor is their order. -/
  sameOrder : verified.failure ≠ some .orderDiffers

/-- What a run comes to, when its call has been performed: output and no failure, or a failure and
its status. -/
def outcomeOf : Except Failure String → Outcome
  | .ok output => { status := 0, output }
  | .error failure => { status := failure.status, failure := some failure }

theorem Failure.status_ne_zero (f : Failure) : f.status ≠ 0 := by
  unfold Failure.status
  split <;> decide

/-- Two runs that fail agree, unless the one that verifies has found a difference. -/
theorem Agreement.ofFailures {f g : Failure} (h : ¬f.IsDifference) :
    Agreement around image (outcomeOf (.error f)) (outcomeOf (.error g)) where
  succeed := iff_of_false f.status_ne_zero g.status_ne_zero
  counts he := absurd he f.status_ne_zero
  samePaths _ he := h (Option.some.inj he ▸ trivial)
  sameOrder he := h (Option.some.inj he ▸ trivial)

section Runs

variable {config : Option String} {verifying printing : List String} {log log' : Bool}

theorem run_of_read {arguments : List String} {call : Invocation}
    (h : Invocation.read around.config arguments = .ok call) :
    run around arguments = outcomeOf (perform around call) := by
  unfold run
  rw [h]
  cases hperform : perform around call <;> simp only [hperform, outcomeOf]

theorem perform_of_error {call : Invocation} {f : Failure}
    (h : loadConfig around (configFile around call) = .error f) : perform around call = .error f := by
  rw [perform, h]
  rfl

/-- What verifying comes to, under a configuration that is read. -/
theorem run_verify {c : Config}
    (hv : Invocation.read around.config verifying = .ok ⟨config, log, .verify image⟩)
    (hload : loadConfig around (config.getD (around.home ++ "/.ttd/config.toml")) = .ok c) :
    run around verifying = outcomeOf ((nameImage around c image).map fun p =>
      s!"ok: {p.objectCount} objects, {p.bodyCount} bodies, {p.scopeCount} scopes\n") := by
  rw [run_of_read hv, ← verifyImage_eq]
  simp only [perform, configFile, hload, bind, Except.bind]

/-- What printing comes to, under a configuration that is read. -/
theorem run_paths {c : Config}
    (hp : Invocation.read around.config printing = .ok ⟨config, log, .paths image []⟩)
    (hload : loadConfig around (config.getD (around.home ++ "/.ttd/config.toml")) = .ok c) :
    run around printing = outcomeOf (printPaths around c image []) := by
  rw [run_of_read hp]
  simp only [perform, configFile, hload, bind, Except.bind]

/-- Under a configuration that is read, the commands agree exactly if the image cannot be named, or
there can be room for the contexts.  A difference is found in no case. -/
theorem agreement_iff_of_load {c : Config}
    (hv : Invocation.read around.config verifying = .ok ⟨config, log, .verify image⟩)
    (hp : Invocation.read around.config printing = .ok ⟨config, log', .paths image []⟩)
    (hload : loadConfig around (config.getD (around.home ++ "/.ttd/config.toml")) = .ok c)
    (hvalid : c.validate = .ok ()) :
    (Agreement around image (run around verifying) (run around printing) ↔
      ((run around verifying).status = 0 → ∀ room ∈ Registry.rooms c, room.Fits)) ∧
    ∀ f, (run around verifying).failure = some f → ¬f.IsDifference := by
  rw [run_verify hv hload, run_paths hp hload]
  rcases nameImage_cases around c image with ⟨a, named, hread, hbuild, hname⟩ | ⟨f, hname, hf⟩
  · refine ⟨⟨fun h hok => ?_, fun h => ?_⟩, by rw [hname]; nofun⟩
    · -- Printing has not succeeded, had it broken off.
      by_contra hroom
      have hprinted := h.succeed.1 hok
      rcases printPaths_of_not_fits hvalid hroom image with ⟨f, _, hf⟩ | ⟨room, _, _, hf⟩
      · rw [hf] at hprinted
        exact f.status_ne_zero hprinted
      · rw [hf] at hprinted
        exact Nat.succ_ne_zero 100 hprinted
    · rw [hname] at h
      rw [printPaths_of_fits hvalid (h rfl), hname]
      refine ⟨Iff.rfl, fun _ => ⟨a, _, hread, hbuild, rfl, ?_⟩, nofun, nofun⟩
      rw [CorePaths.countOf_object, CorePaths.countOf_body, CorePaths.countOf_scope]
      rfl
  · have hfailed : ∃ g, printPaths around c image [] = .error g := by
      by_cases hroom : ∀ room ∈ Registry.rooms c, room.Fits
      · exact ⟨f, by rw [printPaths_of_fits hvalid hroom, hname]; rfl⟩
      · rcases printPaths_of_not_fits hvalid hroom image with ⟨g, _, hg⟩ | ⟨room, _, _, hg⟩
        · exact ⟨g, hg⟩
        · exact ⟨_, hg⟩
    obtain ⟨g, hg⟩ := hfailed
    rw [hname, hg]
    refine ⟨iff_of_true (.ofFailures hf) fun hok => absurd hok f.status_ne_zero, fun f' hf' => ?_⟩
    cases hf'
    exact hf

/-- **Verifying and printing agree exactly if there can be room for the contexts** that the
configuration allows, whenever verifying succeeds under it: for all files, whatever they hold, and for
all arguments that name the same configuration and the same image, and no root.  In no case does
verifying find paths or orders that differ. -/
theorem commandsAgree_iff
    (hv : Invocation.read around.config verifying = .ok ⟨config, log, .verify image⟩)
    (hp : Invocation.read around.config printing = .ok ⟨config, log', .paths image []⟩) :
    (Agreement around image (run around verifying) (run around printing) ↔
      ∀ c, loadConfig around (config.getD (around.home ++ "/.ttd/config.toml")) = .ok c →
        (run around verifying).status = 0 → ∀ room ∈ Registry.rooms c, room.Fits) ∧
    (∀ paths, (run around verifying).failure ≠ some (.pathsDiffer paths)) ∧
      (run around verifying).failure ≠ some .orderDiffers := by
  rcases loadConfig_cases around (config.getD (around.home ++ "/.ttd/config.toml")) with
    ⟨c, hload, hvalid⟩ | ⟨f, hload, hf⟩
  · obtain ⟨hiff, hsame⟩ := agreement_iff_of_load hv hp hload hvalid
    refine ⟨hiff.trans ⟨fun h c' hc' => ?_, fun h => h c hload⟩, fun paths he => hsame _ he trivial,
      fun he => hsame _ he trivial⟩
    cases hload.symm.trans hc'
    exact h
  · have hagree : Agreement around image (run around verifying) (run around printing) := by
      rw [run_of_read hv, run_of_read hp, perform_of_error hload, perform_of_error hload]
      exact .ofFailures hf
    exact ⟨iff_of_true hagree fun c hc => (nomatch hload.symm.trans hc), hagree.samePaths,
      hagree.sameOrder⟩

end Runs

/-- An image in a file, and a configuration in the file of the user, if there is one. -/
def besideImage (content : String) (settings : FileContent) : Surroundings where
  read name :=
    if name = "image.json" then .text content
    else if name = "home/.ttd/config.toml" then settings
    else .missing
  home := "home"
  config := none

theorem read_besideImage (content : String) (settings : FileContent) :
    (besideImage content settings).read "image.json" = .text content := by
  simp [besideImage]

theorem loadConfig_besideImage (content : String) {c : Config} (h : c.validate = .ok ()) :
    loadConfig (besideImage content (.text c.toToml)) "home/.ttd/config.toml" = .ok c := by
  have hread : (besideImage content (.text c.toToml)).read "home/.ttd/config.toml" =
      .text c.toToml := by simp [besideImage]
  unfold loadConfig
  rw [hread]
  simp only [Config.load_toToml, h]

/-- Where the arena whose objects hold themselves is in the file. -/
def besideLooped (settings : FileContent) : Surroundings :=
  besideImage Arena.loopedArena.describe settings

theorem loadImage_besideLooped (settings : FileContent) :
    loadImage (besideLooped settings) "image.json" = .ok Arena.loopedArena := by
  have hdescribed : Arena.ofDescription Arena.loopedArena.describe = .ok Arena.loopedArena := by
    rw [Arena.ofDescription, Arena.parse?_describe]
    rfl
  exact loadImage_of_text (read_besideImage _ settings) hdescribed

theorem nameImage_besideLooped (settings : FileContent) {c : Config}
    (hroom : ∀ room ∈ CorePaths.rooms c, room.Fits) :
    nameImage (besideLooped settings) c "image.json" =
      .ok (.ofNamed [⟨"g", .object ⟨0⟩⟩, ⟨"g.x", .object ⟨1⟩⟩, ⟨"g.x!body", .body ⟨0⟩⟩,
        ⟨"g.x!body!scope[0]", .scope ⟨0⟩⟩]) :=
  nameImage_of_build (loadImage_besideLooped settings) hroom Arena.build_loopedArena

theorem read_verify_besideLooped (settings : FileContent) :
    Invocation.read (besideLooped settings).config ["verify", "image.json"] =
      .ok ⟨none, false, .verify "image.json"⟩ := read_verify nofun (by decide) (by decide)

theorem read_paths_besideLooped (settings : FileContent) :
    Invocation.read (besideLooped settings).config ["paths", "image.json"] =
      .ok ⟨none, false, .paths "image.json" []⟩ := read_paths nofun (by decide) (by decide)

/-- Both commands on that file without a configuration; four things are named. -/
theorem commandsAgree_iff_besideLooped :
    let around := besideLooped .missing
    Agreement around "image.json" (run around ["verify", "image.json"])
        (run around ["paths", "image.json"]) ∧
      run around ["verify", "image.json"] =
        { status := 0, output := "ok: 2 objects, 1 bodies, 1 scopes\n" } ∧
      run around ["paths", "image.json"] =
        { status := 0, output :=
            "object\tg\nobject\tg.x\nbody\tg.x!body\nscope\tg.x!body!scope[0]\n" } := by
  intro around
  have hv := read_verify_besideLooped .missing
  have hp := read_paths_besideLooped .missing
  have hload : loadConfig around "home/.ttd/config.toml" = .ok {} := rfl
  have hroom : ∀ room ∈ Registry.rooms {}, room.Fits := by decide
  refine ⟨(commandsAgree_iff hv hp).1.2 fun c hc _ => ?_, ?_, ?_⟩
  · cases hload.symm.trans hc
    exact hroom
  · rw [run_verify hv hload, nameImage_besideLooped .missing (by decide)]
    decide +kernel
  · rw [run_paths hp hload, printPaths_of_fits rfl hroom,
      nameImage_besideLooped .missing (by decide)]
    decide +kernel

/-- Settings that allow for so many contexts that there cannot be room for them. -/
def wideConfig : Config := { maxContexts := 9000000000000000000 }

/-- **Printing breaks off where verifying succeeds**: the same file, and a configuration that is read
and found in order, but allows for too many contexts. -/
theorem disagree_besideWide :
    let around := besideLooped (.text wideConfig.toToml)
    loadConfig around "home/.ttd/config.toml" = .ok wideConfig ∧
      run around ["verify", "image.json"] =
        { status := 0, output := "ok: 2 objects, 1 bodies, 1 scopes\n" } ∧
      run around ["paths", "image.json"] =
        { status := 101, failure := some (.paths (.noRoom (.list 9000000000000000000 72))) } ∧
      ¬Agreement around "image.json" (run around ["verify", "image.json"])
        (run around ["paths", "image.json"]) := by
  intro around
  have hv := read_verify_besideLooped (.text wideConfig.toToml)
  have hp := read_paths_besideLooped (.text wideConfig.toToml)
  have hload := loadConfig_besideImage Arena.loopedArena.describe (rfl : wideConfig.validate = .ok ())
  have hverified : run around ["verify", "image.json"] =
      { status := 0, output := "ok: 2 objects, 1 bodies, 1 scopes\n" } := by
    rw [run_verify hv hload, nameImage_besideLooped _ (by decide)]
    decide +kernel
  have hprinted : run around ["paths", "image.json"] =
      { status := 101, failure := some (.paths (.noRoom (.list 9000000000000000000 72))) } := by
    have hcreate : Registry.create wideConfig =
        .error (.noRoom (.list 9000000000000000000 72)) := rfl
    rw [run_paths hp hload, printPaths, loadImage_besideLooped]
    simp only [bind, Except.bind, selectRoots, if_true, corePaths, hcreate, asFailure]
    rfl
  refine ⟨hload, hverified, hprinted, fun h => ?_⟩
  have hok := h.succeed.1 (by rw [hverified])
  rw [hprinted] at hok
  cases hok

end Inspector

end Retrace
