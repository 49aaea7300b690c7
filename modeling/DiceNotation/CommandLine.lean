import DiceNotation.Report
import DiceNotation.Text.Quote
import DiceNotation.Text.Decimal
import DiceNotation.Files
import DiceNotation.CommandLine.NumberWords
/-!
# The command line

The command line takes `--cmd` with a command (by default `roll 1d20 rep 5`),
or `--path` with a file of commands, one per line, and the switches `--v`
(show the tree) and `--p` (show the distributions).  A long option may be
shortened to any prefix that names it alone, and may take its value after
`=`.  For a single command it prints the command and its report; for a file
it prints each line that is not blank and its report.  `-h` or `--help`
prints the help.

A command line that cannot be read ends with status 2 and prints nothing;
a file that cannot be opened ends with status 1.
-/

namespace DiceNotation.CommandLine

/-- A value given to `--cmd` or `--path`: a text, or an empty list when the
value given was exactly `--`, since that marker is dropped from an option's
values. -/
inductive Given where
  | text (s : String)
  | nothing
  deriving DecidableEq, Repr

/-- How a given value prints. -/
def Given.shown : Given → String
  | .text s => s
  | .nothing => "[]"

/-- The command a given value stands for; the empty list, like the empty
text, is an empty command. -/
def Given.command : Given → String
  | .text s => s
  | .nothing => ""

/-- The value given after an option: the marker `--` alone leaves nothing. -/
def Given.ofValue (v : String) : Given :=
  if v = "--" then .nothing else .text v

/-- What a command line asks for. -/
structure Options where
  command : Given := .text "roll 1d20 rep 5"
  path : Option Given := none
  verbose : Bool := false
  prob : Bool := false
  deriving Repr

/-- The options a command line knows. -/
inductive Flag where
  | help | cmd | path | verbose | prob
  deriving DecidableEq, Repr

/-- The spellings of the options. -/
def spellings : List (String × Flag) :=
  [("-h", .help), ("--help", .help), ("--cmd", .cmd), ("--path", .path), ("--v", .verbose),
   ("--p", .prob)]

/-- What one argument is, before any is acted on. -/
inductive Arg where
  /-- An option: the one it names (none if it names no option), how it was
  spelled, and a value given with it after `=` or joined to a short option. -/
  | option (flag : Option Flag) (spelling : String) (value : Option String)
  /-- A plain value. -/
  | plain
  /-- The marker `--`: it and everything after it are plain values. -/
  | dashes

/-- Whether a text looks like a negative number: a minus sign, then decimal
digits of any script, or digits (maybe none), a point and digits; one line
feed may end it. -/
def looksNegative (s : String) : Bool :=
  let cs := s.toList
  let cs := if cs.getLast? = some '\n' then cs.dropLast else cs
  match cs with
  | '-' :: rest =>
    let digits := rest.takeWhile Text.isDecimal
    let after := rest.dropWhile Text.isDecimal
    (!digits.isEmpty && after.isEmpty) ||
      (match after with
       | '.' :: frac => !frac.isEmpty && frac.all Text.isDecimal
       | _ => false)
  | _ => false

/-- The options that a shortened or joined spelling may name, with how each is
spelled and the value given with it. -/
def candidates (s : String) : List (Flag × String × Option String) :=
  match s.toList with
  | '-' :: '-' :: _ =>
    let (front, value) := match s.splitOn "=" with
      | front :: rest@(_ :: _) => (front, some ("=".intercalate rest))
      | _ => (s, none)
    spellings.filterMap fun (name, f) =>
      if name.startsWith front then some (f, name, value) else none
  | '-' :: _ :: _ =>
    let short := String.ofList (s.toList.take 2)
    spellings.filterMap fun (name, f) =>
      if name = short then some (f, name, some (String.ofList (s.toList.drop 2)))
      else if name.startsWith s then some (f, name, none)
      else none
  | _ => []

/-- Classifies one argument; `none` when a shortened option names several. -/
def classify (s : String) : Option Arg :=
  match s.toList with
  | '-' :: rest@(_ :: _) =>
    match spellings.lookup s with
    | some f => some (.option f s none)
    | none =>
      let joined := match s.splitOn "=" with
        | front :: rest@(_ :: _) =>
          (spellings.lookup front).map fun f => (f, front, "=".intercalate rest)
        | _ => none
      match joined with
      | some (f, front, v) => some (.option f front (some v))
      | none =>
        match candidates s with
        | [(f, name, v)] => some (.option f name v)
        | _ :: _ :: _ => none
        | [] =>
          if looksNegative s ∨ s.toList.contains ' ' ∨ rest.isEmpty then some .plain
          else some (.option none s none)
  | _ => some .plain

/-- Classifies the arguments up to the marker `--`; everything after it is plain. -/
def classifyAll : List String → Option (List (String × Arg))
  | [] => some []
  | "--" :: rest => some (("--", .dashes) :: rest.map fun a => (a, .plain))
  | a :: rest => do
    let arg ← classify a
    let more ← classifyAll rest
    return (a, arg) :: more

/-- What reading a command line gives. -/
inductive Parsed where
  | run (o : Options)
  | help
  | invalid
  /-- The short help option given an empty value, which has no first character. -/
  | emptyJoined

/-- Whether a short help option's joined value is more help options: each
character is `h`.  `none` when the value is empty. -/
def helpTail (v : String) : Option Bool :=
  if v.isEmpty then none else some (v.toList.all (· = 'h'))

/-- Acts on the arguments in order: an option that takes a value takes the
value joined to it or the next plain argument; the help option prints the help
at once; anything not taken is left over, which makes the command line invalid
once all are read. -/
def act (o : Options) (leftOver : Bool) : List (String × Arg) → Parsed
  | [] => if leftOver then .invalid else .run o
  | (_, .plain) :: rest | (_, .dashes) :: rest | (_, .option none _ _) :: rest =>
    act o true rest
  | (_, .option (some f) spelling value) :: rest =>
    match f, value with
    | .help, none => .help
    | .verbose, none => act { o with verbose := true } leftOver rest
    | .prob, none => act { o with prob := true } leftOver rest
    | .help, some v =>
      if spelling.startsWith "--" then .invalid
      else match helpTail v with
        | none => .emptyJoined
        | some true => .help
        | some false => .invalid
    | .verbose, some _ | .prob, some _ => .invalid
    | .cmd, some v => act { o with command := Given.ofValue v } leftOver rest
    | .path, some v => act { o with path := some (Given.ofValue v) } leftOver rest
    | .cmd, none | .path, none =>
      match rest with
      | (v, .plain) :: more =>
        let o := if f = .cmd then { o with command := Given.ofValue v }
          else { o with path := some (Given.ofValue v) }
        act o leftOver more
      | _ => .invalid

/-- Reads a command line into options: a shortened option that names several
makes it invalid before anything is acted on. -/
def parse (o : Options) (args : List String) : Parsed :=
  match classifyAll args with
  | none => .invalid
  | some classified => act o false classified

/-- The help text of a program. -/
def helpText (program : String) : String :=
  "usage: " ++ program ++ " [-h] [--cmd CMD] [--path PATH] [--v] [--p]\n\n" ++
  "An interpreter for dice language commands.\n\n" ++
  "options:\n" ++
  "  -h, --help   show this help message and exit\n" ++
  "  --cmd CMD    the roll command to run\n" ++
  "  --path PATH  a file with one roll command per line\n" ++
  "  --v          print the AST of each command\n" ++
  "  --p          print the probability map of each throw\n"

/-- The message for a file that cannot be read. -/
def fileMessage (f : Files.FileFault) (path : String) : String :=
  "[Errno " ++ intText f.code ++ "] " ++ f.reason ++ ": " ++ Text.quote path

/-- Whether a character ends a line of a file. -/
def isLineBreak (c : Char) : Bool :=
  c = '\n' ∨ c = '\r' ∨ c = '\x0b' ∨ c = '\x0c' ∨ c = '\x1c' ∨ c = '\x1d' ∨ c = '\x1e' ∨
    c = '\x85' ∨ c = '\u2028' ∨ c = '\u2029'

/-- The lines of a text; a carriage return and a line feed end one line together. -/
def lines (cs : List Char) : List String :=
  let rec go (current : List Char) : List Char → List String
    | [] => if current.isEmpty then [] else [String.ofList current.reverse]
    | '\r' :: '\n' :: rest => String.ofList current.reverse :: go [] rest
    | c :: rest => if isLineBreak c then String.ofList current.reverse :: go [] rest
      else go (c :: current) rest
  go [] cs

/-- The reports of the commands of a file, one per line that is not blank. -/
def reportLines (o : Options) : List String → Draws → Draws × Except Fault String
  | [], d => (d, .ok "")
  | l :: rest, d =>
    if (Text.trim l).isEmpty then reportLines o rest d
    else
      let (d₁, r) := Report.text l o.verbose o.prob d
      match r with
      | .error f => (d₁, .error f)
      | .ok text =>
        let (d₂, more) := reportLines o rest d₁
        (d₂, (l ++ "\n" ++ text ++ ·) <$> more)

/-- What a run prints and its exit status. -/
structure Exit where
  output : String
  status : Nat

/-- Runs the command line, given the contents of the file it names. -/
def run (program : String) (argv : List String)
    (file : String → Except Files.FileFault String) (draws : Draws) : Draws × Except Fault Exit :=
  match parse {} argv with
  | .invalid => (draws, .ok ⟨"", 2⟩)
  | .emptyJoined => (draws, .error .missingCharacter)
  | .help => (draws, .ok ⟨helpText program, 0⟩)
  | .run o =>
    match o.path with
    | none =>
      let (d, r) := Report.text o.command.command o.verbose o.prob draws
      (d, (fun text => ⟨o.command.shown ++ "\n" ++ text, 0⟩) <$> r)
    | some .nothing => (draws, .error .pathNotText)
    | some (.text path) =>
      if path.contains '\x00' then (draws, .error .nullInPath) else
      match file path with
      | .error f => (draws, .ok ⟨"Could not open file: " ++ fileMessage f path ++ "\n", 1⟩)
      | .ok content =>
        let (d, r) := reportLines o (lines content.toList) draws
        (d, (fun text => ⟨text, 0⟩) <$> r)

end DiceNotation.CommandLine
