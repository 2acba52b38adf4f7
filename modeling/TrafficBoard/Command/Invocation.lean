import TrafficBoard.Command.Arguments
import TrafficBoard.Config.Basic

namespace TrafficBoard.Command

/-!
# Invocations — what a command line asks for

* `Invocation` is one of three commands with the options of the program;
* `Invocation.parse` reads it from the arguments and the environment.

Of the ways to select a range one can be chosen, and a half of a pair that belongs to a way not
chosen is ignored.
-/

/-- How the range to render is selected. -/
inductive RangeChoice where
  /-- The selection kept from the last run. -/
  | kept
  | preset (preset : Preset)
  | expressions (fromExpr toExpr : String)
  | absolute (fromMs toMs : Int)
  deriving DecidableEq

/-- The options of a rendering. -/
structure RenderOptions where
  dataDir : Option Path
  /-- The address of the device to show. -/
  mac : Option String
  choice : RangeChoice
  statePath : Option Path
  /-- Whether the output is checked. -/
  validate : Bool
  /-- The present instant, where it is not that of the clock. -/
  nowMs : Option Int

/-- A command with its options. -/
inductive Request where
  /-- Resolve two time expressions. -/
  | resolve (fromExpr toExpr : String) (baseMs : Option Int)
  /-- Show the charts and tables of a device. -/
  | render (options : RenderOptions)
  /-- Rank the counts of a category in a file. -/
  | top (file : Path) (limit : Option Nat)

/-- What a command line asks for. -/
structure Invocation where
  /-- Whether the output is a document. -/
  json : Bool
  configPath : Option Path
  request : Request

/-- The options of every level. -/
def commonOptions : List OptionRule :=
  [⟨"json", none⟩, ⟨"config", some .path⟩]

/-- The level of the program. -/
def programGrammar : Grammar where
  options := commonOptions
  hasCommands := true
  hasVersion := true

/-- The level of the command that resolves. -/
def resolveGrammar : Grammar where
  options := commonOptions ++ [⟨"base-ms", some .word⟩]
  maxWords := 2

/-- The level of the command that renders. -/
def renderGrammar : Grammar where
  options := commonOptions ++
    [⟨"data", some .path⟩, ⟨"mac", some .any⟩, ⟨"preset", some .preset⟩, ⟨"from", some .any⟩,
      ⟨"to", some .any⟩, ⟨"abs-from", some .word⟩, ⟨"abs-to", some .word⟩, ⟨"state", some .path⟩,
      ⟨"validate", none⟩, ⟨"now-ms", some .word⟩]

/-- The level of the command that ranks. -/
def topGrammar : Grammar where
  options := commonOptions ++ [⟨"file", some .path⟩, ⟨"limit", some .size⟩]

/-- The names of the commands. -/
def commandNames : List String :=
  ["resolve", "render", "top", "help"]

/-- The path that an option names. -/
def Given.path? (given : Given) (name : String) : Option Path :=
  (given.value? name).map Path.mk

/-- The signed word that an option gives. -/
def Given.word? (given : Given) (name : String) : Option Int :=
  (given.value? name).bind Command.word?

/-- Whether the options that select a range can stand together. Every half of a pair needs the
other, but a second half whose first half would conflict with another option may stand without. -/
def isConsistent (given : Given) : Bool :=
  let preset := given.has "preset"
  let fromExpr := given.has "from"
  let absFrom := given.has "abs-from"
  !(preset && fromExpr) && !(preset && absFrom) && !(fromExpr && absFrom) &&
    (!fromExpr || given.has "to") && (!absFrom || given.has "abs-to") &&
    (!given.has "to" || preset || fromExpr || absFrom) &&
    (!given.has "abs-to" || preset || fromExpr || absFrom)

/-- The selection of the range: a preset goes before a pair of expressions, and that before a pair
of bounds. -/
def rangeChoice (given : Given) : RangeChoice :=
  match (given.value? "preset").bind preset?, given.value? "from", given.value? "to",
    given.word? "abs-from", given.word? "abs-to" with
  | some p, _, _, _, _ => .preset p
  | none, some fromExpr, some toExpr, _, _ => .expressions fromExpr toExpr
  | none, _, _, some fromMs, some toMs => .absolute fromMs toMs
  | none, _, _, _, _ => .kept

/-- The request to resolve. -/
def resolveRequest (given : Given) : Except Stop Request :=
  match given.words with
  | [] => .error .usage
  | fromExpr :: rest =>
    .ok (.resolve fromExpr (rest.head?.getD "now") (given.word? "base-ms"))

/-- The request to render. -/
def renderRequest (given : Given) : Except Stop Request :=
  if isConsistent given then
    .ok (.render
      { dataDir := given.path? "data"
        mac := given.value? "mac"
        choice := rangeChoice given
        statePath := given.path? "state"
        validate := given.has "validate"
        nowMs := given.word? "now-ms" })
  else .error .usage

/-- The request to rank. -/
def topRequest (given : Given) : Except Stop Request :=
  match given.path? "file" with
  | some file => .ok (.top file ((given.value? "limit").bind size?))
  | none => .error .usage

/-- What a request for help asks for. -/
def helpRequest : List String → Stop
  | [] => .help
  | [name] => if name ∈ commandNames then .help else .usage
  | _ => .usage

/-- The path of the configuration: that of the command, or else that of the program, or else that of
the environment. An empty variable is a mistake unless both levels name a path. -/
def configPath (lookup : Config.Lookup) (program command : Given) : Except Stop (Option Path) :=
  let named := (command.path? "config").or (program.path? "config")
  match lookup configVariable with
  | none => .ok named
  | some path =>
    if path.isEmpty ∧ ¬ (program.has "config" ∧ command.has "config") then .error .usage
    else .ok (named.or (some ⟨path⟩))

/-- The invocation of a command below the level of the program. -/
def commandInvocation (lookup : Config.Lookup) (program : Given) (g : Grammar)
    (request : Given → Except Stop Request) (arguments : List String) :
    Except Stop Invocation := do
  let (command, _) ← g.scan {} arguments
  let path ← configPath lookup program command
  let request ← request command
  return { json := program.has "json" || command.has "json", configPath := path, request }

/-- What a command line asks for. -/
def Invocation.parse (lookup : Config.Lookup) (arguments : List String) :
    Except Stop Invocation := do
  let (program, rest) ← programGrammar.scan {} arguments
  match rest with
  | "resolve" :: rest => commandInvocation lookup program resolveGrammar resolveRequest rest
  | "render" :: rest => commandInvocation lookup program renderGrammar renderRequest rest
  | "top" :: rest => commandInvocation lookup program topGrammar topRequest rest
  | "help" :: rest => .error (helpRequest rest)
  | _ => .error .usage

end TrafficBoard.Command
