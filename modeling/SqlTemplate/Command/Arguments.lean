import SqlTemplate.Settings

/-!
The arguments of the command line. They are read from left to right: the first one that is wrong, or
that asks for help or for the version, decides. `Request.ofArguments` gives what they ask for.
-/

namespace SqlTemplate

/-- Where a template and its parameters come from. -/
structure Source where
  sql : Option String
  file : Option String
  name : Option String
  params : Option String
deriving DecidableEq, Repr

inductive Action where
  | render (source : Source) (dialect : Option Dialect)
  | run (source : Source) (databaseUrl : Option String) (format : Option OutputFormat)
  | inspect (source : Source) (dialect : Option Dialect)
  | reference
deriving DecidableEq, Repr

structure Invocation where
  settingsFile : Option String
  verbose : Bool
  action : Action
deriving DecidableEq, Repr

inductive Request where
  | version
  | help
  | invoke (invocation : Invocation)
deriving DecidableEq, Repr

inductive Verb where
  | render
  | run
  | inspect
  | reference
deriving DecidableEq, Repr

def Verb.ofName? : String → Option Verb
  | "render" => some .render
  | "run" => some .run
  | "inspect" => some .inspect
  | "syntax" => some .reference
  | _ => none

def Verb.takesText : Verb → Bool
  | .render | .run | .inspect => true
  | .reference => false

/-- The options, each known by a long name and most of them by a letter. -/
inductive Flag where
  | config
  | verbose
  | help
  | version
  | file
  | name
  | params
  | dialect
  | databaseUrl
  | format
deriving DecidableEq, Repr

namespace Flag

def longName : Flag → String
  | .config => "config"
  | .verbose => "verbose"
  | .help => "help"
  | .version => "version"
  | .file => "file"
  | .name => "name"
  | .params => "params"
  | .dialect => "dialect"
  | .databaseUrl => "database-url"
  | .format => "format"

def letter? : Flag → Option Char
  | .verbose => some 'v'
  | .help => some 'h'
  | .version => some 'V'
  | .file => some 'f'
  | .name => some 'n'
  | .params => some 'p'
  | .dialect => some 'd'
  | .config | .databaseUrl | .format => none

def takesValue : Flag → Bool
  | .verbose | .help | .version => false
  | _ => true

/-- Whether the option can have the value. A path is never empty. -/
def admits : Flag → String → Bool
  | .config, value | .file, value => !value.isEmpty
  | .dialect, value => (Dialect.ofName? value).isSome
  | .format, value => (OutputFormat.ofName? value).isSome
  | _, _ => true

def general : List Flag := [.config, .verbose, .help, .version]

def ofVerb : Verb → List Flag
  | .render | .inspect => [.config, .verbose, .help, .file, .name, .params, .dialect]
  | .run => [.config, .verbose, .help, .file, .name, .params, .databaseUrl, .format]
  | .reference => [.config, .verbose, .help]

end Flag

/-- Why the arguments are not read on. -/
inductive Interruption where
  | help
  | version
  | misuse
deriving DecidableEq, Repr

structure Given where
  options : List (Flag × String)
  text : Option String
deriving DecidableEq, Repr

namespace Given

def empty : Given := ⟨[], none⟩

def value? (g : Given) (f : Flag) : Option String := g.options.lookup f

def has (g : Given) (f : Flag) : Bool := (g.value? f).isSome

/-- Adds an option; one without a value is given the empty one. No option can be given twice. -/
def add (g : Given) (f : Flag) (value : String) : Except Interruption Given :=
  match f with
  | .help => .error .help
  | .version => .error .version
  | f =>
    if g.has f || !f.admits value then .error .misuse
    else .ok { g with options := (f, value) :: g.options }

/-- Adds an argument that is no option. There is at most one. -/
def addText (verb : Verb) (g : Given) (text : String) : Except Interruption Given :=
  if g.text.isSome || !verb.takesText then .error .misuse else .ok { g with text := some text }

/-- Adds the options in a cluster of letters. What follows the letter of an option with a value is
its value, perhaps after an equals sign; if nothing follows, the option awaits its value. -/
def addLetters (known : List Flag) (g : Given) :
    List Char → Except Interruption (Given × Option Flag)
  | [] => .ok (g, none)
  | c :: cs =>
    match known.find? (·.letter? == some c) with
    | none => .error .misuse
    | some f =>
      if f.takesValue then
        match cs with
        | [] => .ok (g, some f)
        | '=' :: value | value => do return (← g.add f (String.ofList value), none)
      else do
        let g ← g.add f ""
        addLetters known g cs

/-- Adds the option with a long name, whose value may follow an equals sign. -/
def addLong (known : List Flag) (g : Given) (cs : List Char) :
    Except Interruption (Given × Option Flag) :=
  match known.find? (·.longName == String.ofList (cs.takeWhile (· != '='))) with
  | none => .error .misuse
  | some f =>
    match cs.dropWhile (· != '=') with
    | [] => if f.takesValue then .ok (g, some f) else do return (← g.add f "", none)
    | _ :: value =>
      if f.takesValue then do return (← g.add f (String.ofList value), none) else .error .misuse

/-- Adds what an argument gives that starts with a dash and is longer than one. -/
def addOption (known : List Flag) (g : Given) (cs : List Char) :
    Except Interruption (Given × Option Flag) :=
  match cs with
  | '-' :: '-' :: name => addLong known g name
  | letters => addLetters known g (letters.drop 1)

/-- Whether an argument is read for its dashes. A lone dash is a text. -/
def isDashed (argument : String) : Bool := argument.startsWith "-" && argument != "-"

/-- Reads the options before the verb, and gives the arguments from the verb on. -/
def readBefore (g : Given) : List String → Except Interruption (Given × List String)
  | [] => .ok (g, [])
  | argument :: rest =>
    if !isDashed argument || argument == "--" then .ok (g, argument :: rest)
    else do
      let (g, awaiting) ← g.addOption Flag.general argument.toList
      match awaiting, rest with
      | none, rest => readBefore g rest
      | some _, [] => .error .misuse
      | some f, value :: rest =>
        if isDashed value then .error .misuse
        else do
          let g ← g.add f value
          readBefore g rest

/-- Reads the arguments after a verb. After two dashes every argument is a text. -/
def readAfter (verb : Verb) (g : Given) : List String → Except Interruption Given
  | [] => .ok g
  | argument :: rest =>
    if argument == "--" then rest.foldlM (addText verb) g
    else if !isDashed argument then do
      let g ← g.addText verb argument
      readAfter verb g rest
    else do
      let (g, awaiting) ← g.addOption (Flag.ofVerb verb) argument.toList
      match awaiting, rest with
      | none, rest => readAfter verb g rest
      | some _, [] => .error .misuse
      | some f, value :: rest =>
        if isDashed value then .error .misuse
        else do
          let g ← g.add f value
          readAfter verb g rest

end Given

/-- A text and a file exclude each other, and a name is of use only with one of them. -/
def Source.isConsistent (source : Source) : Bool :=
  match source.sql, source.file with
  | some _, some _ => false
  | none, none => source.name.isNone
  | _, _ => true

def Source.ofGiven (g : Given) : Source :=
  ⟨g.text, g.value? .file, g.value? .name, g.value? .params⟩

def Action.ofGiven (verb : Verb) (g : Given) : Except Interruption Action :=
  let source := Source.ofGiven g
  if !source.isConsistent then .error .misuse
  else match verb with
    | .render => .ok (.render source ((g.value? .dialect).bind Dialect.ofName?))
    | .run =>
      .ok (.run source (g.value? .databaseUrl) ((g.value? .format).bind OutputFormat.ofName?))
    | .inspect => .ok (.inspect source ((g.value? .dialect).bind Dialect.ofName?))
    | .reference => .ok .reference

namespace Request

/-- Help for a verb, or for all of them. -/
def readHelp : List String → Except Interruption Request
  | [] => .ok .help
  | [topic] => if topic == "help" || (Verb.ofName? topic).isSome then .ok .help else .error .misuse
  | _ => .error .misuse

def read (arguments : List String) : Except Interruption Request := do
  let (before, rest) ← Given.empty.readBefore arguments
  match rest with
  | [] => .error .misuse
  | "help" :: rest => readHelp rest
  | word :: rest =>
    match Verb.ofName? word with
    | none => .error .misuse
    | some verb => do
      let after ← Given.empty.readAfter verb rest
      let action ← Action.ofGiven verb after
      return .invoke
        { settingsFile := (after.value? .config).orElse fun _ => before.value? .config
          verbose := before.has .verbose || after.has .verbose
          action }

/-- What the arguments ask for, unless they are wrong. -/
def ofArguments (arguments : List String) : Option Request :=
  match read arguments with
  | .ok request => some request
  | .error .help => some .help
  | .error .version => some .version
  | .error .misuse => none

end Request

example : Request.ofArguments ["-v", "render", "-p=\x7b\x7d", "--dialect=mysql", "--", "-- x"] =
    some (.invoke ⟨none, true,
      .render ⟨some "-- x", none, none, some "\x7b\x7d"⟩ (some .mysql)⟩) := by decide +kernel

example : Request.ofArguments ["run", "x", "-f", "y"] = none ∧
    Request.ofArguments ["--config=a", "-vV", "-x"] = some .version ∧
    Request.ofArguments ["syntax", "x", "-h"] = none := by decide +kernel

end SqlTemplate
