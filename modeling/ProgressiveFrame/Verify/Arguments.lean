import ProgressiveFrame.Image.Dump

/-!
# Arguments of the command line

The program has one command, `verify`, with four options and a flag. Arguments are taken from left
to right, and the first one that is wrong or asks for help decides.

* An option takes its value from the same argument, after an equals sign, or from the next one, which
  then must not begin with a hyphen unless it is a single one.
* No option may be given twice, and no argument may stand alone.
-/

namespace ProgressiveFrame

/-- Why a command line asks for no verification. -/
inductive Usage where
  | help
  | version
  | invalid
deriving DecidableEq

/-- The exit code of the program. -/
def Usage.exitCode : Usage → Nat
  | .help | .version => 0
  | .invalid => 2

/-- What is to be verified. -/
structure VerifyRequest where
  dir : String
  machines : Nat
  frame : Nat
  format : DumpFormat
  json : Bool
deriving DecidableEq

/-- What is wrong with the value of an option. -/
inductive ArgumentError where
  | invalidMachines (text : String)
  | noMachines
  | emptyFormat
  | unknownFormat (text : String)
deriving DecidableEq

/-- The sentence for an error. -/
def ArgumentError.message : ArgumentError → String
  | .invalidMachines text => "invalid machine count '" ++ text ++ "'"
  | .noMachines => "machine count must be at least 1"
  | .emptyFormat => "dump format must not be empty"
  | .unknownFormat text => "unknown dump format '" ++ text ++ "'; expected ppm or fbd"

/-- The limit of machine counts and frame numbers. -/
def argumentLimit : Nat := 0x100000000

/-- The format that a text names, in letters of either case and with blanks around it. -/
def readFormat (text : String) : Except ArgumentError DumpFormat :=
  let name := String.ofList ((Text.trim text.toList).map Char.toLower)
  if name = "ppm" then .ok .ppm
  else if name = "fbd" then .ok .fbd
  else if name = "" then .error .emptyFormat
  else .error (.unknownFormat name)

/-- The number of machines that a text writes, with blanks around it. -/
def readMachines (text : String) : Except ArgumentError Nat :=
  match Text.readNatural? 10 argumentLimit (Text.trim text.toList) with
  | none => .error (.invalidMachines text)
  | some 0 => .error .noMachines
  | some n => .ok n

/-- The frame number that a text writes. Zero may have either sign. -/
def readFrame? (text : String) : Option Nat :=
  match text.toList with
  | '-' :: digits => if digits.head? = some '+' then none else (Text.readNatural? 10 1 digits)
  | cs => Text.readNatural? 10 argumentLimit cs

/-- The options that have been given. -/
structure VerifyOptions where
  dir : Option String := none
  machines : Option Nat := none
  frame : Option Nat := none
  format : Option DumpFormat := none
  json : Bool := false

namespace VerifyOptions

/-- Takes an option with its value. -/
def set (o : VerifyOptions) (name value : String) : Except Usage VerifyOptions :=
  match name with
  | "dir" => if o.dir.isSome || value.isEmpty then .error .invalid else .ok { o with dir := some value }
  | "machines" =>
    match o.machines, readMachines value with
    | none, .ok n => .ok { o with machines := some n }
    | _, _ => .error .invalid
  | "frame" =>
    match o.frame, readFrame? value with
    | none, some n => .ok { o with frame := some n }
    | _, _ => .error .invalid
  | "format" =>
    match o.format, readFormat value with
    | none, .ok f => .ok { o with format := some f }
    | _, _ => .error .invalid
  | _ => .error .invalid

/-- Takes an option without a value. -/
def setFlag (o : VerifyOptions) (name : String) : Except Usage VerifyOptions :=
  match name with
  | "json" => if o.json then .error .invalid else .ok { o with json := true }
  | "help" => .error .help
  | _ => .error .invalid

/-- The names of the options that take a value. -/
def valueNames : List String := ["dir", "machines", "frame", "format"]

/-- Whether an argument can be the value of the option before it. -/
def isValue (arg : String) : Bool := !arg.startsWith "-" || arg == "-"

/-- The request, if all options that have to be given are there. -/
def complete (o : VerifyOptions) : Except Usage VerifyRequest :=
  match o.dir, o.machines, o.frame with
  | some dir, some machines, some frame => .ok ⟨dir, machines, frame, o.format.getD .ppm, o.json⟩
  | _, _, _ => .error .invalid

/-- Takes the arguments of the command. -/
def read (o : VerifyOptions) : List String → Except Usage VerifyOptions
  | [] => .ok o
  | ["--"] => .ok o
  | arg :: rest =>
    match arg.toList with
    | '-' :: '-' :: long =>
      let name := String.ofList (long.takeWhile (· ≠ '='))
      match long.dropWhile (· ≠ '=') with
      | _ :: value =>
        match o.set name (String.ofList value) with
        | .error e => .error e
        | .ok o => read o rest
      | [] =>
        if valueNames.contains name then
          match rest with
          | [] => .error .invalid
          | value :: rest =>
            if !isValue value then .error .invalid
            else match o.set name value with
              | .error e => .error e
              | .ok o => read o rest
        else match o.setFlag name with
          | .error e => .error e
          | .ok o => read o rest
    | '-' :: 'h' :: _ => .error .help
    | _ => .error .invalid

end VerifyOptions

/-- The command that is named after the word `help`, if it exists. -/
def readHelp : List String → Usage
  | [] => .help
  | [name] => if name == "verify" || name == "help" then .help else .invalid
  | _ => .invalid

/-- The request of a command line. -/
def VerifyRequest.ofArguments : List String → Except Usage VerifyRequest
  | "verify" :: rest => do (← VerifyOptions.read {} rest).complete
  | "help" :: rest => .error (readHelp rest)
  | "--help" :: _ => .error .help
  | "--version" :: _ => .error .version
  | arg :: _ =>
    match arg.toList with
    | '-' :: 'h' :: _ => .error .help
    | '-' :: 'V' :: _ => .error .version
    | _ => .error .invalid
  | [] => .error .invalid

end ProgressiveFrame
