/-
# How the inspector is called

| command | arguments | does |
| --- | --- | --- |
| `paths` | an image, `--root` with a name any number of times | prints the core paths |
| `verify` | an image | checks that the paths come out the same again |
| `config` | | prints the configuration |

Before or after the command may stand `--config` with a file and `--log-file`, each once at most on
either side, and before it `--version` or `-V`.  A value follows its option, or an equals sign after
it.  What begins with a dash is no value, unless it is a dash alone or comes after the equals sign or
after `--`; what comes after `--` is no option.  File names are not empty.

The configuration file is the one named after the command, else the one named before it, else the one
that the surroundings name.

The commands are those of the command-line tool in the specification (section 10).
-/

namespace Retrace

namespace Inspector

/-- What the inspector is to do, with the arguments that belong to that alone. -/
inductive Command where
  /-- Print the core paths of an image, from certain roots or from all. -/
  | paths (image : String) (roots : List String)
  /-- Check that the core paths of an image come out the same again. -/
  | verify (image : String)
  /-- Print the configuration. -/
  | config
deriving DecidableEq

/-- A call of the inspector, once its arguments have been understood. -/
structure Invocation where
  /-- The configuration file that is named. -/
  config : Option String
  /-- Whether the log goes to a file as well. -/
  logFile : Bool
  /-- What is to be done. -/
  command : Command
deriving DecidableEq

/-- Why there is nothing to be done: an answer at once, or arguments that were not understood. -/
inductive Stop where
  /-- Only the version is wanted. -/
  | version
  /-- The arguments make no sense. -/
  | misuse
deriving DecidableEq

/-- The options given on one side of the command.  The two sides are read alike and joined
afterwards. -/
structure Options where
  /-- The configuration file. -/
  config : Option String := none
  /-- Whether the log goes to a file as well. -/
  logFile : Bool := false
  /-- The names of roots, the first one first. -/
  roots : List String := []
deriving DecidableEq

/-- Whether an argument looks like an option, which a dash alone does not. -/
def isDashed (argument : String) : Bool := argument ≠ "-" && argument.toList.head? = some '-'

/-- The value joined to an option by an equals sign. -/
def joined? (option argument : String) : Option String :=
  ((option.toList ++ ['=']).isPrefixOf? argument.toList).map String.ofList

/-- Takes the value of an option from the arguments, if they begin with that option: the value, and
the arguments after it. -/
def value? (option : String) : List String → Option (Except Stop (String × List String))
  | [] => none
  | argument :: rest =>
    match joined? option argument with
    | some value => some (.ok (value, rest))
    | none =>
      if argument = option then
        match rest with
        | [] => some (.error .misuse)
        | value :: rest => some (if isDashed value then .error .misuse else .ok (value, rest))
      else none

/-- Names the configuration file, once. -/
def Options.setConfig (o : Options) (file : String) : Except Stop Options :=
  if file = "" ∨ o.config.isSome then .error .misuse else .ok { o with config := some file }

/-- Has the log go to a file as well, once. -/
def Options.setLogFile (o : Options) : Except Stop Options :=
  if o.logFile then .error .misuse else .ok { o with logFile := true }

/-- Takes an option of either side of the command from the arguments, if they begin with one, with
its value. -/
def commonOption? (o : Options) (arguments : List String) :
    Option (Except Stop (Options × List String)) :=
  match value? "--config" arguments with
  | some taken => some do
    let (file, rest) ← taken
    return (← o.setConfig file, rest)
  | none =>
    match arguments with
    | "--log-file" :: rest => some (o.setLogFile.map fun o => (o, rest))
    | _ => none

theorem length_lt_of_value? {option : String} {arguments rest : List String} {value : String}
    (h : value? option arguments = some (.ok (value, rest))) : rest.length < arguments.length := by
  unfold value? at h
  split at h
  · simp at h
  · split at h
    · simp only [Option.some.injEq, Except.ok.injEq, Prod.mk.injEq] at h
      simp [← h.2]
    · split at h
      · split at h
        · simp at h
        · split at h
          · simp at h
          · simp only [Option.some.injEq, Except.ok.injEq, Prod.mk.injEq] at h
            rw [← h.2]
            simp only [List.length_cons]
            omega
      · simp at h

theorem length_lt_of_commonOption? {o o' : Options} {arguments rest : List String}
    (h : commonOption? o arguments = some (.ok (o', rest))) :
    rest.length < arguments.length := by
  unfold commonOption? at h
  split at h
  · rename_i taken ht
    match taken, ht with
    | .error e, _ => simp [bind, Except.bind] at h
    | .ok (file, r), ht =>
      have := length_lt_of_value? ht
      cases hs : o.setConfig file with
      | error e => simp [bind, Except.bind, hs] at h
      | ok o'' =>
        simp only [bind, Except.bind, hs, pure, Except.pure, Option.some.injEq, Except.ok.injEq,
          Prod.mk.injEq] at h
        rw [← h.2]
        exact this
  · split at h
    · cases hs : o.setLogFile with
      | error e => simp [Except.map, hs] at h
      | ok o'' =>
        simp only [Except.map, hs, Option.some.injEq, Except.ok.injEq, Prod.mk.injEq] at h
        simp [← h.2]
    · simp at h

/-- Reads the arguments after a command: its options, of which `--root` may or may not be one, and
its other arguments, of which there may be a limited number. -/
def readAfter (takesRoots : Bool) (limit : Nat) (o : Options) (others : List String)
    (arguments : List String) : Except Stop (Options × List String) :=
  match arguments with
  | [] => .ok (o, others)
  | argument :: rest =>
    if argument = "--" then
      if others.length + rest.length ≤ limit then .ok (o, others ++ rest) else .error .misuse
    else
      match _hc : commonOption? o (argument :: rest) with
      | some (.error e) => .error e
      | some (.ok (o, rest)) => readAfter takesRoots limit o others rest
      | none =>
        match _hv : if takesRoots then value? "--root" (argument :: rest) else none with
        | some (.error e) => .error e
        | some (.ok (name, rest)) =>
          readAfter takesRoots limit { o with roots := o.roots ++ [name] } others rest
        | none =>
          if isDashed argument ∨ limit ≤ others.length then .error .misuse
          else readAfter takesRoots limit o (others ++ [argument]) rest
termination_by arguments.length
decreasing_by
  · exact length_lt_of_commonOption? _hc
  · cases takesRoots with
    | false => simp at _hv
    | true => exact length_lt_of_value? _hv
  · simp

/-- The command with a name, made from its options and other arguments; the wrong number of those
makes no command. -/
def command? (name : String) (arguments : List String) :
    Option (Except Stop (Options × Command)) :=
  match name with
  | "paths" => some do
    match ← readAfter true 1 {} [] arguments with
    | (o, [image]) => if image = "" then .error .misuse else .ok (o, .paths image o.roots)
    | _ => .error .misuse
  | "verify" => some do
    match ← readAfter false 1 {} [] arguments with
    | (o, [image]) => if image = "" then .error .misuse else .ok (o, .verify image)
    | _ => .error .misuse
  | "config" => some do
    let (o, _) ← readAfter false 0 {} [] arguments
    return (o, .config)
  | _ => none

/-- Joins the options on both sides of a command, and what the surroundings name as configuration
file.  An empty name there is refused wherever it would count. -/
def join (named : Option String) (before after : Options) (command : Command) :
    Except Stop Invocation :=
  if named = some "" ∧ (before.config.isNone ∨ after.config.isNone) then .error .misuse
  else .ok ⟨(after.config.or before.config).or named, before.logFile || after.logFile, command⟩

/-- Reads the arguments up to the command, and the rest with it. -/
def readBefore (named : Option String) (o : Options) (arguments : List String) :
    Except Stop Invocation :=
  match arguments with
  | [] => .error .misuse
  | argument :: rest =>
    match _hc : commonOption? o (argument :: rest) with
    | some (.error e) => .error e
    | some (.ok (o, rest)) => readBefore named o rest
    | none =>
      if argument = "--version" ∨ (argument.toList.take 2 = ['-', 'V']) then .error .version
      else match command? argument rest with
        | none => .error .misuse
        | some read => do
          let (after, command) ← read
          join named o after command
termination_by arguments.length
decreasing_by exact length_lt_of_commonOption? _hc

/-- The call that arguments make, where the surroundings may name a configuration file.  Nothing is
read from a file for it. -/
def Invocation.read (named : Option String) (arguments : List String) : Except Stop Invocation :=
  readBefore named {} arguments

end Inspector

end Retrace
