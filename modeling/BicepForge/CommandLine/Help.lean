import BicepForge.CommandLine.Command

/-!
# Help

What the program says about its commands and their options. Help lists rows, each a label and what
it stands for. Short help keeps a row on one line where it fits; long help gives each row its own
paragraph and explains the choices of an option.
-/

namespace BicepForge.CommandLine

def version : String := "0.1.0"

def program : String := "bsb"

/-- What the program is, in one line. -/
def programAbout : String :=
  "Bicep Schema Builder - validate Azure schemas and generate Bicep"

/-- What the program is, at length. -/
def programStory : String :=
  String.intercalate "\n"
    ["Bicep Schema Builder validates Azure resource schemas, ARM deployment",
     "templates and Bicep code, and generates Bicep from schemas and templates.",
     "",
     "COMMANDS:",
     "  validate  → Validate a resource schema, ARM template or Bicep file",
     "  generate  → Generate Bicep for one resource schema",
     "  convert   → Convert an ARM virtual machine template to Bicep",
     "  assemble  → Assemble several catalog resources into one deployment",
     "",
     "EXIT CODES:",
     "  0 - Success",
     "  1 - General error",
     "  2 - Invalid arguments",
     "  3 - Validation failure",
     "  4 - Template or input error",
     "  5 - IaC generation error"]

/-! ## Layout -/

def lineWidth : Nat := 100

def blanks (n : Nat) : String :=
  String.ofList (List.replicate n ' ')

/-- Fills lines of a width with words; a word that is longer has a line of its own. -/
def fill (width : Nat) (line : String) : List String → List String
  | [] => [line]
  | word :: words =>
    if line.length + 1 + word.length ≤ width then fill width (line ++ " " ++ word) words
    else line :: fill width word words

/-- The lines of a width that a text fills. -/
def wrap (width : Nat) (text : String) : List String :=
  match ((Text.splitOn ' ' text.toList).map String.ofList) with
  | [] => []
  | word :: words => fill width word words

structure HelpRow where
  /-- How it is written. -/
  label : String
  /-- What it is for. -/
  about : String
  /-- What else is to be known, in brackets. -/
  notes : List String := []
  choices : List Choice := []

def choicesNote (choices : List Choice) : List String :=
  if choices.isEmpty then []
  else ["[possible values: " ++ String.intercalate ", " (choices.map (·.word)) ++ "]"]

namespace HelpRow

/-- The notes of short help, which lists choices without explaining them. -/
def shortNotes (r : HelpRow) : String :=
  String.intercalate " " (r.notes ++ choicesNote r.choices)

/-- Whether short help would have too little room beside labels of this width. -/
def overflows (labelWidth : Nat) (r : HelpRow) : Bool :=
  let taken := labelWidth + 12
  taken ≤ lineWidth && 40 * lineWidth < 100 * taken &&
    lineWidth - taken < r.about.length + r.shortNotes.length

/-- A row of short help, beside labels of a width or, where they take too much, below the label. -/
def short (labelWidth? : Option Nat) (r : HelpRow) : String :=
  let text := if r.shortNotes = "" then r.about else r.about ++ " " ++ r.shortNotes
  let indent := match labelWidth? with
    | some width => width + 4
    | none => 10
  let start := match labelWidth? with
    | some width => blanks (width + 2 - r.label.length)
    | none => "\n" ++ blanks indent
  "  " ++ r.label ++ start ++
    String.intercalate ("\n" ++ blanks indent) (wrap (lineWidth - indent) text)

/-- Whether long help explains the choices of a row. -/
def explained (r : HelpRow) : Bool :=
  r.choices.any (·.about?.isSome)

def choiceLines (r : HelpRow) : List String :=
  let width := (r.choices.map (·.word.length)).foldl max 0
  r.choices.map fun c =>
    match c.about? with
    | none => "- " ++ c.word
    | some about => "- " ++ c.word ++ ": " ++ blanks (width - c.word.length) ++ about

def long (r : HelpRow) : String :=
  let notes := r.notes ++ if r.explained then [] else choicesNote r.choices
  let lines := wrap (lineWidth - 10) r.about ++ (if notes.isEmpty then [] else "" :: notes)
  let below := String.join (lines.map fun line => "\n" ++ blanks 10 ++ line)
  let explanation :=
    if r.explained then
      "\n\n" ++ blanks 10 ++ "Possible values:" ++
        String.join (r.choiceLines.map fun line => "\n" ++ blanks 10 ++ line)
    else ""
  "  " ++ r.label ++ below ++ explanation

end HelpRow

def listing (title : String) (long : Bool) (rows : List HelpRow) : List String :=
  let width := (rows.map (·.label.length)).foldl max 2
  let labelWidth? := if rows.any (·.overflows width) then none else some width
  if rows.isEmpty then []
  else if long then [title ++ ":\n" ++ String.intercalate "\n\n" (rows.map (·.long))]
  else [title ++ ":\n" ++ String.intercalate "\n" (rows.map (·.short labelWidth?))]

/-! ## Texts -/

/-- The label of an option: its letter and its name, and a word for its value. -/
def OptionSpec.label (o : OptionSpec) : String :=
  let letter := match o.letter? with
    | some c => "-" ++ String.singleton c ++ ", "
    | none => "    "
  letter ++ "--" ++ o.name ++ if o.arity = .flag then "" else " <" ++ o.valueName ++ ">"

/-- The row of an option; the one for help tells of the other kind of help, if there is one. -/
def OptionSpec.row (long twofold : Bool) (o : OptionSpec) : HelpRow :=
  { label := o.label
    about :=
      if o.name = "help" ∧ twofold then
        o.about ++ if long then " (see a summary with '-h')" else " (see more with '--help')"
      else o.about
    notes := o.default?.toList.map fun v => "[default: " ++ v ++ "]"
    choices := o.choices }

def helpPage (about usage : String) (sections : List String) : String :=
  String.intercalate "\n\n" (about :: ("Usage: " ++ program ++ usage) :: sections) ++ "\n"

def commandRows : List HelpRow :=
  CommandName.all.map (fun c => { label := c.name, about := c.about }) ++
    [{ label := "help", about := "Print this message or the help of the given subcommand(s)" }]

def programHelp (long : Bool) : String :=
  helpPage (if long then programStory else programAbout) " [OPTIONS] <COMMAND>"
    (listing "Commands" false commandRows ++
      listing "Options" long (commonOptions.map (·.row long true)))

/-- The options that a command cannot do without, as they are written. -/
def CommandName.requiredText : CommandName → String
  | assemble => " --schemas <SCHEMAS> --resource <RESOURCES>"
  | _ => ""

/-- Help on a command. It is twofold where choices are explained at length. -/
def CommandName.help (c : CommandName) (long : Bool) : String :=
  let twofold := c.options.any fun o => o.choices.any (·.about?.isSome)
  let long := long && twofold
  let operands := c.operand?.toList.map fun o =>
    ({ label := "<" ++ o.name ++ ">", about := o.about } : HelpRow)
  helpPage c.about
    (" " ++ c.name ++ " [OPTIONS]" ++ c.requiredText ++
      String.join (operands.map fun r => " " ++ r.label))
    (listing "Arguments" long operands ++
      listing "Options" long (c.options.map (·.row long twofold)))

def helpText (command? : Option CommandName) (long : Bool) : String :=
  match command? with
  | none => programHelp long
  | some c => c.help long

end BicepForge.CommandLine
