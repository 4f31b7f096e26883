import RamlBuild.CommandLine.Task

/-!
# Invocations

The tool is invoked by words: the name of a task, the options and the operands of the task, and
options of the tool, which may stand anywhere. An option of the tool that is given both before and
behind the name of the task counts as given behind it, and none may be given twice at one of the two
places.

## Main definitions

* `Invocation` — what the words ask for
* `Refusal` — what is done instead of a task
* `Invocation.ofWords` — reads the words
* `Invocation.run` — does what they ask for
-/

namespace RamlBuild

/-- What the words of an invocation ask for. -/
structure Invocation where
  /-- The configuration file. -/
  config : Option String
  /-- Whether results are printed as JSON. -/
  json : Bool
  /-- The task. -/
  task : Task
  deriving DecidableEq, Repr

/-- Why no task is done. -/
inductive Refusal where
  /-- The words make no sense. -/
  | usage
  /-- They ask for help. -/
  | help
  /-- They ask for the version. -/
  | version
  deriving DecidableEq, Repr

/-- The names of tasks. -/
inductive TaskName where
  | install | vendor | uninstall | mergeRaml | docs | generate | patch | buildImage | doctor
  deriving DecidableEq, Repr

/-- The task that a word names. -/
def TaskName.ofWord? : String → Option TaskName
  | "install" => some install
  | "vendor" => some vendor
  | "uninstall" => some uninstall
  | "merge-raml" => some mergeRaml
  | "docs" => some docs
  | "generate" => some generate
  | "patch" => some patch
  | "docker-build" => some buildImage
  | "doctor" => some doctor
  | _ => none

/-- A word as it is read before it is known what it belongs to. -/
inductive Word where
  /-- Two dashes: only operands follow. -/
  | escape
  /-- An option by its name, perhaps with a value. -/
  | long (name : String) (value : Option String)
  /-- Options by their letters. -/
  | short (letters : List Char)
  /-- Anything else. -/
  | plain (text : String)
  deriving DecidableEq, Repr

/-- A word by its dashes. -/
def Word.ofText (text : String) : Word :=
  match text.toList with
  | ['-', '-'] => escape
  | '-' :: '-' :: rest =>
    let name := String.ofList (Text.beforeFirst '=' rest)
    match rest.dropWhile (· != '=') with
    | _ :: value => long name (some (String.ofList value))
    | [] => long name none
  | ['-'] => plain text
  | '-' :: letters => short letters
  | _ => plain text

/-- The options and operands at one of the two places. -/
structure Given where
  /-- The task, for the words behind its name. -/
  task : Option TaskName
  /-- The configuration file. -/
  config : Option String
  /-- Whether details are logged. -/
  verbose : Bool
  /-- Whether results are printed as JSON. -/
  json : Bool
  /-- The patches that are asked for. -/
  patches : List Patch
  /-- The tool that is asked for. -/
  tool : Option ManagedTool
  deriving DecidableEq, Repr

/-- An option whose value is still to come. -/
inductive ValueOption where
  /-- The configuration file. -/
  | config
  /-- A patch. -/
  | pass
  deriving DecidableEq, Repr

namespace Given

/-- Nothing, at a place. -/
def none (task : Option TaskName) : Given := ⟨task, .none, false, false, [], .none⟩

/-- The option of a name that takes a value. -/
def valueOption? (given : Given) (name : String) : Option ValueOption :=
  match name, given.task with
  | "config", _ => some .config
  | "pass", some .patch => some .pass
  | _, _ => .none

/-- One more value. -/
def setValue (given : Given) (option : ValueOption) (value : String) : Except Refusal Given :=
  match option with
  | .config =>
    if given.config.isSome then .error .usage else .ok { given with config := some value }
  | .pass =>
    match Patch.ofName? value with
    | some patch => .ok { given with patches := given.patches ++ [patch] }
    | .none => .error .usage

/-- One more option without a value, by its name. -/
def setFlag (given : Given) (name : String) : Except Refusal Given :=
  match name, given.task with
  | "verbose", _ => if given.verbose then .error .usage else .ok { given with verbose := true }
  | "json", _ => if given.json then .error .usage else .ok { given with json := true }
  | "help", _ => .error .help
  | "version", .none => .error .version
  | _, _ => .error .usage

/-- The name of an option without a value, by its letter. -/
def flagOfLetter : Char → String
  | 'v' => "verbose"
  | 'h' => "help"
  | 'V' => "version"
  | _ => ""

/-- One more operand. -/
def setOperand (given : Given) (text : String) : Except Refusal Given :=
  match given.task, given.tool, ManagedTool.ofName? text with
  | some .uninstall, .none, some tool => .ok { given with tool := some tool }
  | _, _, _ => .error .usage

/-- One more word that does not wait for another one: what is given with it, or the option that
waits for its value. -/
def addWord (given : Given) : Word → Except Refusal (Given × Option ValueOption)
  | .long name value =>
    match given.valueOption? name, value with
    | some option, some value => do .ok (← given.setValue option value, .none)
    | some option, .none => .ok (given, some option)
    | .none, some _ => .error .usage
    | .none, .none => do .ok (← given.setFlag name, .none)
  | .short letters => do
    .ok (← letters.foldlM (fun given c => given.setFlag (flagOfLetter c)) given, .none)
  | .plain text => do .ok (← given.setOperand text, .none)
  | .escape => .ok (given, .none)

/-- The word is taken for the value of the option that waits for it. -/
def addValue (given : Given) (option : ValueOption) : Word → Except Refusal Given
  | .plain text => given.setValue option text
  | _ => .error .usage

/-- Reads operands. -/
def readOperands (given : Given) (words : List String) : Except Refusal Given :=
  words.foldlM setOperand given

/-- Reads the words behind the name of a task; `waiting` is the option that waits for its value. -/
def readWords (waiting : Option ValueOption) (given : Given) : List String → Except Refusal Given
  | [] => if waiting.isSome then .error .usage else .ok given
  | text :: rest => do
    match waiting, Word.ofText text with
    | some option, word => readWords .none (← given.addValue option word) rest
    | .none, .escape => given.readOperands rest
    | .none, word => do
      let (given, waiting) ← given.addWord word
      readWords waiting given rest

/-- The task with its operands. -/
def toTask (given : Given) : TaskName → Except Refusal Task
  | .install => .ok .install
  | .vendor => .ok .vendor
  | .uninstall =>
    match given.tool with
    | some tool => .ok (.uninstall tool)
    | .none => .error .usage
  | .mergeRaml => .ok .mergeRaml
  | .docs => .ok .docs
  | .generate => .ok .generate
  | .patch => .ok (.patch given.patches)
  | .buildImage => .ok .buildImage
  | .doctor => .ok .doctor

end Given

namespace Invocation

/-- The words behind the word for help: nothing, or the name of what help is asked for. -/
def readHelp : List String → Refusal
  | [] => .help
  | [word] => if word == "help" || (TaskName.ofWord? word).isSome then .help else .usage
  | _ => .usage

/-- What the words before and behind the name of a task ask for. -/
def ofGiven (before behind : Given) (name : TaskName) : Except Refusal Invocation := do
  .ok ⟨behind.config <|> before.config, before.json || behind.json, ← behind.toTask name⟩

/-- Reads words up to the name of a task, and those behind it; `waiting` is the option that waits
for its value. -/
def readWords (waiting : Option ValueOption) (given : Given) :
    List String → Except Refusal Invocation
  | [] => .error .usage
  | text :: rest => do
    match waiting, TaskName.ofWord? text with
    | some option, _ => readWords none (← given.addValue option (Word.ofText text)) rest
    -- From the name of the task on, words belong to the task.
    | none, some name => ofGiven given (← (Given.none (some name)).readWords none rest) name
    | none, none =>
      if text == "help" then .error (readHelp rest)
      else
        match Word.ofText text with
        | .escape => .error .usage
        | word => do
          let (given, waiting) ← given.addWord word
          readWords waiting given rest

/-- What the words of an invocation ask for. -/
def ofWords (words : List String) : Except Refusal Invocation :=
  readWords none (.none none) words

/-- The name of the tool with its version. -/
def versionLine : String := "container-forge 0.6.0"

/-- Does what is asked for. -/
def run (invocation : Invocation) : Build Unit := do
  let settings ← Settings.load (invocation.config.map Path.mk)
  invocation.task.run settings invocation.json

end Invocation

end RamlBuild
