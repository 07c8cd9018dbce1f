/-
# The inspector

A command for looking at descriptions of core images.

| command | prints |
| --- | --- |
| `paths` | a line for each core path: objects, then bodies, then scopes, each sorted |
| `verify` | how many objects, bodies and scopes are named, after naming them twice |
| `config` | the configuration |

The configuration is read first, whatever the command, and has to be one that can be worked with.
The status is 0 on success, 1 on failure, 2 if the arguments make no sense, and 101 if the program
breaks off as it asks for more room than there can be.

This is the command-line tool of the specification (section 10).
-/

import Retrace.Inspector.Files
import Retrace.Inspector.Invocation
import Retrace.Json.Arena
import Retrace.Registry.Basic
import Retrace.Text.Shown
import Retrace.Toml.Config

namespace Retrace

namespace Inspector

/-- What the inspector finds around it: the files, and where to look for the configuration. -/
structure Surroundings where
  /-- What is found under a file name. -/
  read : String → FileContent
  /-- The directory of the user. -/
  home : String
  /-- The configuration file that is named there. -/
  config : Option String

/-- Why the inspector fails, with what its message has to tell. -/
inductive Failure where
  /-- The configuration file is no text. -/
  | configUnreadable (file : String)
  /-- The configuration file has not the right form. -/
  | configMalformed
  /-- The configuration cannot be worked with. -/
  | configInvalid (error : Error)
  /-- The image is missing, or is no text. -/
  | imageUnreadable (file : String)
  /-- The image has not the right form. -/
  | imageMalformed (file : String)
  /-- The image has a handle that leads nowhere. -/
  | imageInvalid (file : String) (error : Error)
  /-- The image has no root of a name. -/
  | unknownRoot (name : String)
  /-- The paths cannot be worked out. -/
  | paths (error : Error)
  /-- Some paths came out only once. -/
  | pathsDiffer (paths : List String)
  /-- The paths came out in another order. -/
  | orderDiffers
deriving DecidableEq

namespace Failure

/-- A failure in words; an error of the library is told in the words of the library. -/
def message : Failure → String
  | configUnreadable file => s!"Failed to read config file: {shown file}"
  | configMalformed => "Failed to parse config file as TOML"
  | configInvalid e => e.message
  | imageUnreadable file => s!"Failed to read image file: {shown file}"
  | imageMalformed file => s!"Invalid image description: {shown file}"
  | imageInvalid file _ => s!"Invalid image description: {shown file}"
  | unknownRoot name => s!"Image has no root named `{name}`"
  | paths e => e.message
  | pathsDiffer names =>
    let list := String.intercalate ", " (names.map shown)
    s!"Path sets differ between runs: [{list}]"
  | orderDiffers => "Traversal order differs between runs"

/-- The status that a failure leaves.  The program breaks off with one of its own if too much room
is asked for. -/
def status : Failure → Nat
  | paths (.noRoom _) => 101
  | _ => 1

/-- The error that lies behind a failure, where its own words do not give it. -/
def cause? : Failure → Option Error
  | imageInvalid _ e => some e
  | _ => none

end Failure

/-- How a run of the inspector ends: with output, with a failure, or with neither if there was
nothing to be done. -/
structure Outcome where
  /-- The status. -/
  status : Nat
  /-- What is printed. -/
  output : String := ""
  /-- Why it failed. -/
  failure : Option Failure := none
deriving DecidableEq

/-- The file that holds the configuration: the one named in the call, else one in the directory of
the user, which need not be there. -/
def configFile (around : Surroundings) (call : Invocation) : String :=
  call.config.getD (around.home ++ "/.ttd/config.toml")

/-- The files that a call reads, in the order in which it does, if it comes to that. -/
def filesOf (around : Surroundings) (call : Invocation) : List String :=
  configFile around call :: match call.command with
    | .paths image _ => [image]
    | .verify image => [image]
    | .config => []

/-- Reads the configuration.  A file that is missing leaves every setting at its default, even if it
was named in the call. -/
def loadConfig (around : Surroundings) (file : String) : Except Failure Config :=
  let load (content : Option String) : Except Failure Config :=
    match Config.load content with
    | .ok c => .ok c
    | .error .malformed => .error .configMalformed
    | .error (.invalid e) => .error (.configInvalid e)
  match around.read file with
  | .missing => load none
  | .unreadable => .error (.configUnreadable file)
  | .text content => load (some content)

/-- Writes a configuration to a file, which holds its settings in TOML and nothing else then. -/
def saveConfig (around : Surroundings) (file : String) (c : Config) : Surroundings :=
  { around with read := fun name => if name = file then .text c.toToml else around.read name }

/-- Reads an image, which has to be there, in the right form, and with no handle that leads out of
it. -/
def loadImage (around : Surroundings) (file : String) : Except Failure Arena :=
  match around.read file with
  | .text content =>
    match Arena.ofDescription content with
    | .ok a => .ok a
    | .error .malformed => .error (.imageMalformed file)
    | .error (.invalid e) => .error (.imageInvalid file e)
  | _ => .error (.imageUnreadable file)

/-- The roots of certain names, each the first of its name; all of them if no name is given.  A name
given twice gives its root twice. -/
def selectRoots (available : List NamedRoot) (names : List String) :
    Except Failure (List NamedRoot) :=
  if names = [] then .ok available
  else names.mapM fun name =>
    match available.find? fun r => r.name = name with
    | some r => .ok r
    | none => .error (.unknownRoot name)

/-- The word for the kind of a target. -/
def kindOf : CoreTarget → String
  | .object _ => "object"
  | .body _ => "body"
  | .scope _ => "scope"

/-- A line for each core path, with the kind of its target: objects, then bodies, then scopes, each
sorted. -/
def pathLines (p : CorePaths) : List String := p.sorted.map fun e => s!"{kindOf e.target}\t{e.path}"

/-- An error of the library as a failure of the inspector. -/
def asFailure {α : Type} : Except Error α → Except Failure α
  | .ok a => .ok a
  | .error e => .error (.paths e)

/-- The core paths of an image as a registry works them out, which sets room aside for its contexts
first. -/
def corePaths (config : Config) (image : Arena) (roots : List NamedRoot) :
    Except Failure CorePaths := do
  let r ← asFailure (Registry.create config)
  match Registry.ensureCorePaths image.image roots r with
  | .ok p _ => .ok p
  | .error e _ => .error (.paths e)

/-- Prints the core paths of an image, from certain roots or from all. -/
def printPaths (around : Surroundings) (config : Config) (file : String) (names : List String) :
    Except Failure String := do
  let image ← loadImage around file
  let roots ← selectRoots image.roots names
  let p ← corePaths config image roots
  return String.join ((pathLines p).map (· ++ "\n"))

/-- Compares the paths that came out once with those that came out again: which there are, and then
in which order they came. -/
def compareRuns (once again : CorePaths) : Except Failure Unit :=
  let only := fun (p q : CorePaths) => p.traversalOrder.filter fun path => path ∉ q.traversalOrder
  let apart := only once again ++ only again once
  if apart ≠ [] then .error (.pathsDiffer apart)
  else if once.traversalOrder ≠ again.traversalOrder then .error .orderDiffers
  else .ok ()

/-- Names everything in an image, from all of its roots.  No registry is made for it. -/
def nameImage (around : Surroundings) (config : Config) (file : String) :
    Except Failure CorePaths := do
  let image ← loadImage around file
  asFailure (CorePaths.buildFor config image.image image.roots)

/-- Names everything in an image twice, reading the file each time, and counts what is named. -/
def verifyImage (around : Surroundings) (config : Config) (file : String) :
    Except Failure String := do
  let once ← nameImage around config file
  let again ← nameImage around config file
  compareRuns once again
  let objects := once.objectCount
  let bodies := once.bodyCount
  let scopes := once.scopeCount
  return s!"ok: {objects} objects, {bodies} bodies, {scopes} scopes\n"

/-- Does what a call asks for, once the configuration has been read. -/
def perform (around : Surroundings) (call : Invocation) : Except Failure String := do
  let config ← loadConfig around (configFile around call)
  match call.command with
  | .paths image roots => printPaths around config image roots
  | .verify image => verifyImage around config image
  | .config => return config.toToml

/-- Runs the inspector on arguments.  If they were not understood no file is read. -/
def run (around : Surroundings) (arguments : List String) : Outcome :=
  match Invocation.read around.config arguments with
  | .error .version => { status := 0, output := "ttd 0.0.2\n" }
  | .error .misuse => { status := 2 }
  | .ok call =>
    match perform around call with
    | .ok output => { status := 0, output }
    | .error failure => { status := failure.status, failure := some failure }

end Inspector

end Retrace
