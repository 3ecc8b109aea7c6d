import RegionInference.Text.Blank
import RegionInference.Text.Digit

/-!
# Command-line arguments

A command line names a command and, for the command, an input and options. Options may stand
anywhere, may be shortened as long as they stay unambiguous, and take a value from behind an equals
sign or from the next argument; options of one letter may be run together. After two dashes alone
every argument is taken as it is. An argument that nobody wants is misuse, but only if nothing
before the end of the line asks for help or for the version.
-/

namespace RegionInference.Command

open Text

/-- What an option is for. -/
inductive Flag where
  /-- Shows how to call the program. -/
  | help
  /-- Shows the version. -/
  | version
  /-- Chooses a function. -/
  | function
  /-- Gives a file with settings. -/
  | config
  /-- Asks for more output. -/
  | verbose
  /-- Asks for JSON. -/
  | json
  /-- Gives the number of functions analysed at a time. -/
  | workers
deriving DecidableEq

/-- Whether the option has a value. -/
def Flag.takesValue : Flag → Bool
  | .function | .config | .workers => true
  | .help | .version | .verbose | .json => false

/-- The names of options. -/
abbrev Table := List (String × Flag)

/-- The options in front of a command. -/
def outerTable : Table :=
  [("-h", .help), ("--help", .help), ("--version", .version)]

/-- The options of every command. -/
def commonTable : Table :=
  [("-h", .help), ("--help", .help), ("--function", .function), ("--config", .config),
    ("-v", .verbose), ("--verbose", .verbose)]

/-- The options of the command that checks. -/
def checkTable : Table :=
  commonTable ++ [("--json", .json), ("--workers", .workers)]

/-! ### Words -/

/-- What an argument is taken for. -/
inductive Word where
  /-- An argument that is no option. -/
  | plain (text : String)
  /-- Two dashes alone. -/
  | separator
  /-- An option, by its full name, with the value written behind it. -/
  | option (flag : Flag) (name : String) (value : Option String)
  /-- An option of unknown name. -/
  | unknown

/-- The text before and behind the first equals sign. -/
def splitValue? (cs : List Char) : Option (List Char × List Char) :=
  match cs.span (· != '=') with
  | (name, _ :: value) => some (name, value)
  | (_, []) => none

/-- The text without a line feed at its end. -/
def dropLineEnd (cs : List Char) : List Char :=
  if cs.getLast? == some '\n' then cs.dropLast else cs

/-- Whether a text is a negative number, with or without a point. A line may end behind it. -/
def isNegativeNumber (cs : List Char) : Bool :=
  let isDecimal (c : Char) : Bool := (decimalValue? c).isSome
  match dropLineEnd cs with
  | '-' :: cs =>
    match cs.dropWhile isDecimal with
    | [] => !cs.isEmpty
    | '.' :: fraction => !fraction.isEmpty && fraction.all isDecimal
    | _ => false
  | _ => false

/-- The options that a text with a dash in front, and no full name, may stand for. -/
def candidates (table : Table) (cs : List Char) : List Word :=
  match cs with
  | '-' :: '-' :: _ =>
    let (name, value) := match splitValue? cs with
      | some (name, value) => (name, some (String.ofList value))
      | none => (cs, none)
    (table.filter fun (full, _) => name.isPrefixOf full.toList).map fun (full, flag) =>
      .option flag full value
  | _ =>
    table.filterMap fun (full, flag) =>
      if full.toList == cs.take 2 then some (.option flag full (some (String.ofList (cs.drop 2))))
      else if cs.isPrefixOf full.toList then some (.option flag full none)
      else none

/-- What an argument is taken for; nothing if it may stand for several options. -/
def word? (table : Table) (text : String) : Option Word :=
  let cs := text.toList
  if cs.head? != some '-' || cs.length == 1 then some (.plain text)
  else
    match table.lookup text with
    | some flag => some (.option flag text none)
    | none =>
      let valued := (splitValue? cs).bind fun (name, value) =>
        (table.lookup (String.ofList name)).map fun flag =>
          Word.option flag (String.ofList name) (some (String.ofList value))
      match valued with
      | some word => some word
      | none =>
        match candidates table cs with
        | [word] => some word
        | _ :: _ :: _ => none
        | [] => some (if isNegativeNumber cs || cs.contains ' ' then .plain text else .unknown)

/-- What arguments are taken for; nothing if one may stand for several options. -/
def words? (table : Table) : List String → Option (List Word)
  | [] => some []
  | "--" :: args => some (.separator :: args.map .plain)
  | arg :: args => do
    let word ← word? table arg
    return word :: (← words? table args)

/-! ### Options -/

/-- The options of a call. -/
structure Options where
  /-- The input. -/
  input : Option String := none
  /-- The chosen function. Two dashes behind an equals sign choose one that has no name. -/
  function : Option (Option String) := none
  /-- The file with settings. -/
  config : Option String := none
  /-- Whether more output is asked for. -/
  verbose : Bool := false
  /-- Whether JSON is asked for. -/
  json : Bool := false
  /-- The number of functions analysed at a time. -/
  workers : Option Int := none
  /-- Whether there are arguments that nobody wants. -/
  leftover : Bool := false

/-- Why a command line is not read to its end. -/
inductive Stop where
  /-- Help is asked for. -/
  | help
  /-- The version is asked for. -/
  | version
  /-- The program is called wrongly. -/
  | misuse
deriving DecidableEq

/-- The digits of a number, between any two of which one underscore may stand. -/
def digits? : List Char → Option (List Char)
  | [] => none
  | [c] => if (decimalValue? c).isSome then some [c] else none
  | c :: '_' :: cs => if (decimalValue? c).isSome then (digits? cs).map (c :: ·) else none
  | c :: cs => if (decimalValue? c).isSome then (digits? cs).map (c :: ·) else none

/-- The whole number that a text stands for, blanks around it aside. -/
def integer? (text : String) : Option Int := do
  let (negative, cs) := match trimBlanks text.toList with
    | '-' :: cs => (true, cs)
    | '+' :: cs => (false, cs)
    | cs => (false, cs)
  let digits ← digits? cs
  if digits.length > maxNumeralDigits then none
  else
    let n ← decimalNumber? 0 digits
    return if negative then -n else n

/-- Sets what an option is for. -/
def Options.set (options : Options) (flag : Flag) (value : String) : Except Stop Options :=
  match flag with
  | .help => .error .help
  | .version => .error .version
  | .function => .ok { options with function := some (some value) }
  | .config => .ok { options with config := some value }
  | .verbose => .ok { options with verbose := true }
  | .json => .ok { options with json := true }
  | .workers =>
    match integer? value with
    | some n => .ok { options with workers := some n }
    | none => .error .misuse

/-- Sets what an option is for to the value behind its equals sign. Two dashes alone are no value:
they undo the option, or choose a function without a name. -/
def Options.setWritten (options : Options) (flag : Flag) (value : String) : Except Stop Options :=
  if value != "--" then options.set flag value
  else
    .ok (match flag with
      | .function => { options with function := some none }
      | .config => { options with config := none }
      | .workers => { options with workers := none }
      | .help | .version | .verbose | .json => options)

/-- Sets what several options without values are for. -/
def Options.setAll (options : Options) (flags : List Flag) : Except Stop Options :=
  flags.foldlM (fun options flag => options.set flag "") options

/-- Options of one letter run together: those without a value, and the last one if it has one, with
what is written behind it. -/
def cluster? (table : Table) : List Char → Option (List Flag × Option (Flag × Option String))
  | [] => some ([], none)
  | c :: cs => do
    let flag ← table.lookup (String.ofList ['-', c])
    if flag.takesValue then
      return ([], some (flag, if cs.isEmpty then none else some (String.ofList cs)))
    else
      let (flags, last) ← cluster? table cs
      return (flag :: flags, last)

/-- The options that one argument stands for: those without a value, and the one with a value, with
what is written behind it. -/
def flags? (table : Table) (flag : Flag) (name : String) (value : Option String) :
    Option (List Flag × Option (Flag × Option String)) :=
  if flag.takesValue then some ([], some (flag, value))
  else
    match value with
    | none => some ([flag], none)
    | some value => do
      if "--".toList.isPrefixOf name.toList || value.isEmpty then none
      else
        let (flags, last) ← cluster? table value.toList
        return (flag :: flags, last)

/-- What follows a separator in front. -/
def dropSeparator : List Word → List Word
  | .separator :: words => words
  | words => words

/-- A separator is one word at most, so what is left is no longer than before. -/
theorem length_dropSeparator_le (words : List Word) :
    (dropSeparator words).length ≤ words.length := by
  unfold dropSeparator
  split <;> simp

/-- Reads the words behind a command. -/
def readOptions (table : Table) (options : Options) (words : List Word) : Except Stop Options :=
  match words with
  | [] => .ok options
  | .unknown :: words => readOptions table { options with leftover := true } words
  | .plain text :: words =>
    if options.input.isNone then
      readOptions table { options with input := some text } (dropSeparator words)
    else readOptions table { options with leftover := true } words
  | .separator :: .plain text :: words =>
    if options.input.isNone then readOptions table { options with input := some text } words
    else readOptions table { options with leftover := true } words
  | .separator :: words => readOptions table { options with leftover := true } words
  | .option flag name value :: words =>
    match flags? table flag name value with
    | none => .error .misuse
    | some (flags, none) => do readOptions table (← options.setAll flags) words
    | some (flags, some (last, some value)) => do
      readOptions table (← (← options.setAll flags).setWritten last value) words
    | some (flags, some (last, none)) =>
      match words with
      | .plain value :: words => do
        readOptions table (← (← options.setAll flags).set last value) words
      | _ => .error .misuse
termination_by words.length
decreasing_by
  all_goals simp only [List.length_cons]
  all_goals first
    | omega
    | exact Nat.lt_succ_of_le (length_dropSeparator_le _)

/-! ### Commands -/

/-- What the program can be asked to do. -/
inductive Task where
  /-- Report conflicts. -/
  | check
  /-- Show the solved regions. -/
  | regions
  /-- Draw the graph of a function. -/
  | dot
deriving DecidableEq

/-- The command of that name. -/
def Task.ofText? : String → Option Task
  | "check" => some .check
  | "regions" => some .regions
  | "dot" => some .dot
  | _ => none

/-- The options of a command. -/
def Task.table : Task → Table
  | .check => checkTable
  | .regions | .dot => commonTable

/-- A call of a command. -/
structure Call where
  /-- The command. -/
  task : Task
  /-- The input. -/
  input : String
  /-- The options. -/
  options : Options

/-- Reads the arguments behind the name of a command. -/
def readCall (name : String) (args : List String) : Except Stop Call := do
  match Task.ofText? name with
  | none => throw .misuse
  | some task =>
    match words? task.table args with
    | none => throw .misuse
    | some words =>
      let options ← readOptions task.table {} words
      match options.input, options.leftover with
      | some input, false => return { task, input, options }
      | _, _ => throw .misuse

/-- Reads the words of a command line, each beside its argument; `leftover` tells whether there was
one that nobody wants. Nothing is returned for a line that names no command. -/
def readLine (leftover : Bool) : List (String × Word) → Except Stop (Option Call)
  | [] => if leftover then .error .misuse else .ok none
  | (_, .separator) :: _ => .error .misuse
  | (_, .unknown) :: words => readLine true words
  | (_, .plain name) :: words => do
    let call ← readCall name (words.map Prod.fst)
    if leftover then throw .misuse else return some call
  | (_, .option flag name value) :: words => do
    match flags? outerTable flag name value with
    | none => throw .misuse
    | some (flags, _) =>
      let _ ← ({} : Options).setAll flags
      readLine leftover words

/-- Reads a command line. -/
def parse (args : List String) : Except Stop (Option Call) :=
  match words? outerTable args with
  | none => .error .misuse
  | some words => readLine false (args.zip words)

end RegionInference.Command
