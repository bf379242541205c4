import SnapshotStore.Report.Dump
import SnapshotStore.Report.Info
import SnapshotStore.Report.Verify

/-!
The command line of the report tool: options, one command, and options of the command.

An option is written `--name value`, `--name=value`, `-nvalue`, `-n=value` or `-n value`; short
flags may be put together with each other and with one option at their end. A value that begins with
a hyphen must be attached to its option, unless it is the hyphen alone. The path and the wish for
more output may stand before the command or after it, where the one after it counts; nothing may be
given twice at one place. The words are read from left to right, and the first that does not fit, or
asks for help, ends the reading. A value that is a word of its own is looked at when the next switch
of its place is read or, at the latest, when all words have been.
-/

namespace SnapshotStore.CommandLine

/-! ## Switches -/

/-- What can be set by a word that begins with a hyphen. -/
inductive Switch where
  | path
  | verbose
  | format
  | entity
  | limit
  | help
  | version
  deriving DecidableEq, Repr

namespace Switch

def longName : Switch → String
  | path => "path"
  | verbose => "verbose"
  | format => "format"
  | entity => "entity"
  | limit => "limit"
  | help => "help"
  | version => "version"

def letter : Switch → Char
  | path => 'p'
  | verbose => 'v'
  | format => 'f'
  | entity => 'e'
  | limit => 'l'
  | help => 'h'
  | version => 'V'

def takesValue : Switch → Bool
  | path | format | entity | limit => true
  | verbose | help | version => false

end Switch

/-- Why the reading of a command line ended before its end. -/
inductive Stop where
  /-- Help was asked for. -/
  | help
  /-- The version of the tool was asked for. -/
  | version
  /-- A word does not fit, or one is wanting. -/
  | misuse
  deriving DecidableEq, Repr

/-! ## Values -/

/-- The greatest limit. -/
def greatestLimit : Nat := 18446744073709551615

/-- The number that digits spell, after an optional plus. -/
def number? (text : String) : Option Nat :=
  let digits := match text.toList with
    | '+' :: rest => rest
    | s => s
  if digits.isEmpty ∨ ¬ digits.all Char.isDigit then none
  else
    let n := digits.foldl (fun acc c => acc * 10 + (c.toNat - 0x30)) 0
    if n ≤ greatestLimit then some n else none

/-- Whether a value is one that a switch can have. -/
def Switch.accepts (s : Switch) (value : String) : Bool :=
  match s with
  | .path => value ≠ ""
  | .limit => (number? value).isSome
  | _ => true

/-! ## Words -/

/-- The switches that were given at one place, with their values; flags have an empty one. -/
abbrev Given := List (Switch × String)

/-- One more switch. One that was given before, and a value that the switch cannot have, are
misuses. -/
def add (given : Given) (s : Switch) (value : String) : Except Stop Given :=
  if given.any (·.1 = s) ∨ ¬ s.accepts value then .error .misuse
  else .ok ((s, value) :: given)

/-- One more flag; those for help and version end the reading. -/
def addFlag (given : Given) (s : Switch) : Except Stop Given :=
  match s with
  | .help => .error .help
  | .version => .error .version
  | s => add given s ""

/-- Where the reading of the switches at one place stands: those given, and one after them whose
value is a word of its own, with that word once it was read. -/
structure Progress where
  given : Given
  last : Option (Switch × Option String)

def Progress.start : Progress := ⟨[], none⟩

/-- The switches that were given, the last one with them. -/
def Progress.settle (p : Progress) : Except Stop Given :=
  match p.last with
  | none => .ok p.given
  | some (_, none) => .error .misuse
  | some (s, some value) => add p.given s value

/-- Reads the letters of a word after its hyphen. -/
def readLetters (allowed : List Switch) (given : Given) : List Char → Except Stop Progress
  | [] => .ok ⟨given, none⟩
  | c :: rest =>
    match allowed.find? (·.letter = c) with
    | none => .error .misuse
    | some s =>
      if s.takesValue then
        match rest with
        | [] => .ok ⟨given, some (s, none)⟩
        | '=' :: value => (add given s (String.ofList value)).map (⟨·, none⟩)
        | value => (add given s (String.ofList value)).map (⟨·, none⟩)
      else do
        let given ← addFlag given s
        readLetters allowed given rest

/-- Reads a word after its two hyphens. -/
def readLong (allowed : List Switch) (given : Given) (word : List Char) : Except Stop Progress :=
  let name := word.takeWhile (· ≠ '=')
  let value := (word.dropWhile (· ≠ '=')).tail?
  match allowed.find? (·.longName.toList = name), value with
  | none, _ => .error .misuse
  | some s, none =>
    if s.takesValue then .ok ⟨given, some (s, none)⟩ else (addFlag given s).map (⟨·, none⟩)
  | some s, some value =>
    if s.takesValue then (add given s (String.ofList value)).map (⟨·, none⟩) else .error .misuse

/-- What begins with a hyphen and is more than that. -/
inductive Hyphenated where
  | letters (word : List Char)
  | long (word : List Char)
  /-- Two hyphens alone: what follows is no switch. -/
  | endOfSwitches

/-- The kind of a word that begins with a hyphen. -/
def hyphenated? (word : String) : Option Hyphenated :=
  match word.toList with
  | ['-', '-'] => some .endOfSwitches
  | '-' :: '-' :: rest => some (.long rest)
  | ['-'] => none
  | '-' :: rest => some (.letters rest)
  | _ => none

/-- Reads words up to the first that is neither a switch nor the value of one. Gives what was read,
and that word with those behind it. -/
def readSwitches (allowed : List Switch) : Progress → List String →
    Except Stop (Progress × List String)
  | p, [] => .ok (p, [])
  | p, word :: rest =>
    match hyphenated? word, p.last with
    | some .endOfSwitches, _ => do
      let given ← p.settle
      if rest.isEmpty then .ok (⟨given, none⟩, []) else .error .misuse
    | some (.long name), _ => do
      let p ← readLong allowed (← p.settle) name
      readSwitches allowed p rest
    | some (.letters letters), _ => do
      let p ← readLetters allowed (← p.settle) letters
      readSwitches allowed p rest
    | none, some (s, none) => readSwitches allowed ⟨p.given, some (s, some word)⟩ rest
    | none, _ => .ok (p, word :: rest)

/-! ## Commands -/

/-- The commands. -/
inductive CommandName where
  | info
  | verify
  | dump
  | version
  deriving DecidableEq, Repr

namespace CommandName

def word : CommandName → String
  | info => "info"
  | verify => "verify"
  | dump => "dump"
  | version => "version"

def all : List CommandName := [info, verify, dump, version]

def ofWord? (word : String) : Option CommandName := all.find? (·.word = word)

/-- The switches that can stand after a command. -/
def switches : CommandName → List Switch
  | info | verify => [.path, .verbose, .format, .help]
  | dump => [.path, .verbose, .entity, .limit, .format, .help]
  | version => [.path, .verbose, .help]

end CommandName

/-- A command line that was read. -/
structure Request where
  command : CommandName
  path : Option String
  entity : String
  limit : Option Nat
  format : String
  deriving DecidableEq, Repr

/-- The switches that can stand before the command. -/
def leadingSwitches : List Switch := [.path, .verbose, .help, .version]

def value? (given : Given) (s : Switch) : Option String := given.lookup s

def helpWord : String := "help"

/-- What asking for help on words gives: help on a command, on help or on the whole, or a misuse. -/
def helpOn : List String → Stop
  | [] => .help
  | [word] => if word = helpWord ∨ (CommandName.ofWord? word).isSome then .help else .misuse
  | _ => .misuse

/-- The request of a command with the switches before it and after it. An entity must be given where
one can be. -/
def assemble (command : CommandName) (before behind : Given) : Except Stop Request :=
  let entity := value? behind .entity
  if command = .dump ∧ entity.isNone then .error .misuse
  else
    .ok {
      command
      path := (value? behind .path).or (value? before .path)
      entity := entity.getD ""
      limit := (value? behind .limit).bind number?
      format := (value? behind .format).getD "text" }

def read (args : List String) : Except Stop Request := do
  let (before, rest) ← readSwitches leadingSwitches .start args
  match rest with
  | [] => throw .misuse
  | word :: rest =>
    if word = helpWord then throw (helpOn rest)
    else
      match CommandName.ofWord? word with
      | none => throw .misuse
      | some command =>
        let (behind, rest) ← readSwitches command.switches .start rest
        let behind ← behind.settle
        if rest.isEmpty then assemble command (← before.settle) behind else throw .misuse

/-! ## Running -/

def toolVersion : String := "0.4.0"

/-- What a request gives on a disk. -/
def Request.run (request : Request) (d : Disk) : Report.Outcome :=
  let withPath (report : String → Report.Outcome) : Report.Outcome :=
    match request.path with
    | some path => report path
    | none => .failed "" (.stated ("Backup path required for " ++ request.command.word))
  match request.command with
  | .info => withPath fun path => Report.Info.run d path request.format
  | .verify => withPath fun path => Report.Verification.run d path request.format
  | .dump => withPath fun path => Report.Dump.run d path request.entity request.limit request.format
  | .version => .done ("EdgeStore CLI v" ++ toolVersion ++ "\n")

/-- What a stop gives. The texts of help and of misuse are not given. -/
def Stop.outcome : Stop → Report.Outcome
  | help => .done ""
  | version => .done ("edgestore " ++ toolVersion ++ "\n")
  | misuse => ⟨2, "", ""⟩

/-- What a command line gives on a disk. -/
def run (args : List String) (d : Disk) : Report.Outcome :=
  match read args with
  | .ok request => request.run d
  | .error stop => stop.outcome

end SnapshotStore.CommandLine
