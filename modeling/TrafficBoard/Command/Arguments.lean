import TrafficBoard.Number.Word
import TrafficBoard.Range.Preset
import TrafficBoard.Text.Digit

namespace TrafficBoard.Command

/-!
# Arguments — the options and words of one level of a command line

* `Grammar` lists the options of a level and says how words are taken;
* `Grammar.scan` reads the arguments of a level from left to right into `Given`;
* `Stop` is what ends a command line early: a request for help, or a mistake.

An option is given once at most, as `--name value` or `--name=value`; in the first form the value
starts with no dash, unless it is a dash alone. After `--` everything is a word.
-/

/-- What ends the reading of a command line. -/
inductive Stop where
  /-- Help or the version is asked for. -/
  | help
  | usage
  deriving DecidableEq

/-- What the value of an option has to be. -/
inductive ValueForm where
  | any
  /-- A text that is not empty. -/
  | path
  /-- A signed word. -/
  | word
  /-- An unsigned word. -/
  | size
  | preset
  deriving DecidableEq

/-- The signed word of a value. -/
def word? (s : String) : Option Int :=
  (Text.signed? s.toList).bind Number.word?

/-- The unsigned word of a value. -/
def size? (s : String) : Option Nat :=
  (Text.unsigned? s.toList).filter fun n => n < Number.sizeLimit

/-- The quick range of a value. -/
def preset? (s : String) : Option Preset :=
  (Preset.parse s).toOption

/-- Whether a value has a form. -/
def ValueForm.accepts (s : String) : ValueForm → Bool
  | .any => true
  | .path => !s.isEmpty
  | .word => (word? s).isSome
  | .size => (size? s).isSome
  | .preset => (preset? s).isSome

/-- An option of a level; one without a form takes no value. -/
structure OptionRule where
  name : String
  form : Option ValueForm

/-- The options of a level, and how words are taken. -/
structure Grammar where
  options : List OptionRule
  /-- The greatest number of words, where they are not commands. -/
  maxWords : Nat := 0
  /-- Whether the first word is a command, at which the level ends. -/
  hasCommands : Bool := false
  /-- Whether the version can be asked for. -/
  hasVersion : Bool := false

/-- The options with their values, and the words. An option that takes no value has the empty
one. -/
structure Given where
  options : List (String × String) := []
  words : List String := []

namespace Given

/-- The value of an option, if it is given. -/
def value? (given : Given) (name : String) : Option String :=
  (given.options.find? fun o => o.1 = name).map Prod.snd

/-- Whether an option is given. -/
def has (given : Given) (name : String) : Bool :=
  (given.value? name).isSome

/-- Adds an option that is not given yet. -/
def addOption (given : Given) (name value : String) : Except Stop Given :=
  if given.has name then .error .usage
  else .ok { given with options := given.options ++ [(name, value)] }

/-- Adds words up to a number of them. -/
def addWords (given : Given) (limit : Nat) (words : List String) : Except Stop Given :=
  if given.words.length + words.length ≤ limit then
    .ok { given with words := given.words ++ words }
  else .error .usage

end Given

/-- An argument by its dashes. -/
inductive Argument where
  /-- Two dashes alone. -/
  | separator
  | long (name : String) (attached : Option String)
  | short (letters : List Char)
  | word (s : String)

/-- The name of a long option and the value after an equals sign. -/
def splitLong (s : List Char) : Argument :=
  let name := s.takeWhile fun c => c ≠ '='
  .long (String.ofList name)
    (if name.length = s.length then none else some (String.ofList (s.drop (name.length + 1))))

/-- An argument by its dashes; a dash alone is a word. -/
def Argument.ofText (s : String) : Argument :=
  match s.toList with
  | ['-', '-'] => .separator
  | '-' :: '-' :: rest => splitLong rest
  | ['-'] => .word s
  | '-' :: letters => .short letters
  | _ => .word s

/-- Whether an argument can be the value of the option before it. -/
def isValue (s : String) : Bool :=
  match Argument.ofText s with
  | .word _ => true
  | _ => false

namespace Grammar

/-- The rule of an option. -/
def rule? (g : Grammar) (name : String) : Option OptionRule :=
  g.options.find? fun o => o.name = name

/-- What a short option asks for. -/
def short (g : Grammar) (letters : List Char) : Stop :=
  match letters.head? with
  | some 'h' => .help
  | some 'V' => if g.hasVersion then .help else .usage
  | _ => .usage

/-- What an option without a rule asks for. -/
def unruled (g : Grammar) (name : String) (attached : Option String) : Stop :=
  if attached.isNone ∧ (name = "help" ∨ (name = "version" ∧ g.hasVersion)) then .help else .usage

/-- Adds an option with a value of its form. -/
def addValue (given : Given) (name : String) (form : ValueForm) (value : String) :
    Except Stop Given :=
  if form.accepts value then given.addOption name value else .error .usage

/-- Adds an option that is one argument; for an option that takes the next argument as its value,
the form of that value. -/
def long (g : Grammar) (given : Given) (name : String) (attached : Option String) :
    Except Stop (Given ⊕ ValueForm) :=
  match g.rule? name with
  | none => .error (g.unruled name attached)
  | some ⟨_, none⟩ =>
    if attached.isSome then .error .usage else (given.addOption name "").map .inl
  | some ⟨_, some form⟩ =>
    match attached with
    | some value => (addValue given name form value).map .inl
    | none => .ok (.inr form)

/-- Reads the arguments of a level, and what is left at a command. -/
def scan (g : Grammar) (given : Given) : List String → Except Stop (Given × List String)
  | [] => .ok (given, [])
  | argument :: rest =>
    match Argument.ofText argument with
    | .separator =>
      if g.hasCommands then .error .usage
      else (given.addWords g.maxWords rest).map fun given => (given, [])
    | .short letters => .error (g.short letters)
    | .word s =>
      if g.hasCommands then .ok (given, s :: rest)
      else
        match given.addWords g.maxWords [s] with
        | .ok given => g.scan given rest
        | .error stop => .error stop
    | .long name attached =>
      match g.long given name attached with
      | .error stop => .error stop
      | .ok (.inl given) => g.scan given rest
      | .ok (.inr form) =>
        match rest with
        | [] => .error .usage
        | value :: rest =>
          if isValue value then
            match addValue given name form value with
            | .ok given => g.scan given rest
            | .error stop => .error stop
          else .error .usage

end Grammar

end TrafficBoard.Command
