import Datapath.CommandLine.Arguments
import Datapath.CommandLine.Evaluate
import Datapath.CommandLine.Push
import Datapath.CommandLine.Show
import Datapath.Literal

/-!
# The program

From the arguments of the program to what is seen of its run. The first argument names a command, and
the rest are the command's own; without any, the program shows what it is. A line of arguments that
makes no request ends in a usage fault, with exit code 2 and its message on the error output.
-/

set_option autoImplicit false

namespace Datapath.CommandLine

/-! ## Values of arguments -/

/-- The operations by the names they have on the command line. -/
def opNames : List (String × AluOp) :=
  [("add", .add), ("sub", .subtract), ("and", .and), ("or", .or), ("xor", .xor),
    ("cmp", .compare), ("shl", .shiftLeft), ("shr", .shiftRight), ("sra", .shiftRightArithmetic),
    ("mul", .multiply), ("div", .divide)]

/-- The operation of a name. -/
def readOp (argument text : String) : Except UsageFault AluOp :=
  match opNames.lookup text with
  | some op => .ok op
  | none => .error (if text.isEmpty then .noValue argument else .badValue text argument none)

/-- The cell that a literal means. -/
def readCell (argument text : String) : Except UsageFault Cell :=
  (Literal.read text).mapError fun refusal => .badValue text argument (some refusal.message)

/-- The width of a number of bits. -/
def readWidth (argument text : String) : Except UsageFault Width :=
  (Literal.readWidth text).mapError fun reason => .badValue text argument (some reason)

/-! ## Grammars of the commands -/

/-- The switch that asks for the help page of a command. -/
def helpSwitch {σ : Type} : Switch σ :=
  ⟨"help", some 'h', "--help", .help⟩

/-- The arguments of the command that evaluates an operation. -/
def aluGrammar : Grammar AluRequest where
  places :=
    [⟨false, false, fun text r => return { r with op := ← readOp "<OP>" text }⟩,
      ⟨false, true, fun text r => return { r with a := ← readCell "<A>" text }⟩,
      ⟨false, true, fun text r => return { r with b := ← readCell "<B>" text }⟩]
  switches :=
    [⟨"size", some 's', "--size <SIZE>",
        .value fun text r => return { r with width := ← readWidth "--size <SIZE>" text }⟩,
      ⟨"carry", some 'c', "--carry", .flag fun r => { r with carry := true }⟩,
      ⟨"json", none, "--json", .flag fun r => { r with json := true }⟩,
      helpSwitch]

/-- What an evaluation is before its arguments are known. -/
def aluDefaults : AluRequest :=
  ⟨.add, 0#64, 0#64, .w64, false, false⟩

/-- The arguments of the command that pushes values. -/
def pushGrammar : Grammar PushRequest where
  places :=
    [⟨false, false, fun text r => return { r with width := ← readWidth "<SIZE>" text }⟩,
      ⟨true, true, fun text r =>
        return { r with values := r.values ++ [← readCell "<VALUES>..." text] }⟩]
  switches :=
    [⟨"pointer", some 'p', "--pointer <POINTER>",
        .value fun text r => return { r with pointer := ← readCell "--pointer <POINTER>" text }⟩,
      ⟨"pop", none, "--pop", .flag fun r => { r with pop := true }⟩,
      helpSwitch]

/-- What a push is before its arguments are known. -/
def pushDefaults : PushRequest :=
  ⟨.w64, [], 0xFFFF#64, false⟩

/-- The arguments of the command that shows the register file; the one value is whether to show it as
JSON. -/
def regsGrammar : Grammar Bool where
  places := []
  switches := [⟨"json", none, "--json", .flag fun _ => true⟩, helpSwitch]

/-! ## Requests -/

/-- A command of the program. -/
inductive Command
  | alu | push | regs | help
  deriving DecidableEq, Repr

/-- The commands by their names. -/
def commandNames : List (String × Command) :=
  [("alu", .alu), ("push", .push), ("regs", .regs), ("help", .help)]

/-- What the program is asked to do. -/
inductive Request
  | demo
  | version
  /-- To print the help page of a command, or that of the program. -/
  | help (command : Option Command)
  | alu (request : AluRequest)
  | push (request : PushRequest)
  | regs (json : Bool)
  deriving DecidableEq, Repr

/-- The request of a command, or its help page. -/
def ofCommand {σ : Type} (command : Command) (request : σ → Request) (values : Except Stop σ) :
    Except UsageFault Request :=
  match values with
  | .ok values => .ok (request values)
  | .error .help => .ok (.help (some command))
  | .error (.fault f) => .error f

/-- The request of the command that prints help pages: names of commands lead to a page, and no
command has commands of its own. -/
def readHelp : List String → Except UsageFault Request
  | [] => .ok (.help none)
  | name :: rest =>
    match commandNames.lookup name, rest with
    | none, _ => .error (.noCommand name)
    | some command, [] => .ok (.help (some command))
    | some _, next :: _ => .error (.noCommand next)

/-- The request of a command with its arguments. -/
def Command.read (command : Command) (args : List String) : Except UsageFault Request :=
  match command with
  | .alu => ofCommand .alu .alu (aluGrammar.read aluDefaults args)
  | .push => ofCommand .push .push (pushGrammar.read pushDefaults args)
  | .regs => ofCommand .regs .regs (regsGrammar.read false args)
  | .help => readHelp args

/-- The request of a first argument that begins with two dashes and goes on like this. -/
def readLong (body : List Char) : Except UsageFault Request :=
  let name := String.ofList (body.takeWhile (· != '='))
  match name, body.dropWhile (· != '=') with
  | "version", [] => .ok .version
  | "help", [] => .ok (.help none)
  | "version", _ :: value | "help", _ :: value =>
    .error (.extraValue (String.ofList value) ("--" ++ name))
  | _, _ => .error (.unexpected ("--" ++ name))

/-- The request that the arguments of the program make. After a first `--` no command is taken. -/
def readRequest : List String → Except UsageFault Request
  | [] => .ok .demo
  | first :: rest =>
    match commandNames.lookup first with
    | some command => command.read rest
    | none =>
      match first.toList with
      | ['-', '-'] =>
        match rest with
        | [] => .ok .demo
        | next :: _ =>
          if (commandNames.lookup next).isSome then .error (.unexpected next)
          else .error (.noCommand next)
      | '-' :: '-' :: body => readLong body
      | '-' :: 'V' :: _ => .ok .version
      | '-' :: 'h' :: _ => .ok (.help none)
      | '-' :: c :: _ => .error (.unexpected (String.ofList ['-', c]))
      | _ => .error (.noCommand first)

/-! ## Help pages -/

/-- The lines of the program's help page. -/
def helpLines : List String :=
  ["Register file, status word, stack and integer ALU of a 64-bit virtual CPU", "",
    "Usage: vcpu-emu [COMMAND]", "",
    "Commands:",
    "  alu   Evaluate one ALU operation and show the result and flags",
    "  push  Push values onto a fresh 64 KiB stack",
    "  regs  Show the register file after reset",
    "  help  Print this message or the help of the given subcommand(s)", "",
    "Options:",
    "  -h, --help     Print help",
    "  -V, --version  Print version"]

/-- The lines of a command's help page. -/
def Command.helpLines : Command → List String
  | alu =>
    ["Evaluate one ALU operation and show the result and flags", "",
      "Usage: vcpu-emu alu [OPTIONS] <OP> <A> <B>", "",
      "Arguments:",
      "  <OP>  Operation to perform [possible values: add, sub, and, or, xor, cmp, shl, shr, sra, mul, div]",
      "  <A>   Target register value (hex 0x.., binary 0b.., or signed decimal)",
      "  <B>   Operand register value", "",
      "Options:",
      "  -s, --size <SIZE>  Operand size in bits (8, 16, 32 or 64) [default: 64]",
      "  -c, --carry        Set the carry flag before the operation",
      "      --json         Print the result as JSON",
      "  -h, --help         Print help"]
  | push =>
    ["Push values onto a fresh 64 KiB stack", "",
      "Usage: vcpu-emu push [OPTIONS] <SIZE> <VALUES>...", "",
      "Arguments:",
      "  <SIZE>       Width of each value in bits (8, 16, 32 or 64)",
      "  <VALUES>...  Values to push, in order", "",
      "Options:",
      "  -p, --pointer <POINTER>  Initial stack pointer [default: 0xFFFF]",
      "      --pop                Pop every value back off afterwards",
      "  -h, --help               Print help"]
  | regs =>
    ["Show the register file after reset", "",
      "Usage: vcpu-emu regs [OPTIONS]", "",
      "Options:",
      "      --json  Print as JSON",
      "  -h, --help  Print help"]
  | help =>
    ["Print this message or the help of the given subcommand(s)", "",
      "Usage: vcpu-emu help [COMMAND]...", "",
      "Arguments:",
      "  [COMMAND]...  Print help for the subcommand(s)"]

/-! ## Running -/

/-- What is seen of a request. -/
def Request.run : Request → Transcript
  | demo => showDemo
  | version => .printed ["vcpu-emu 0.1.0"]
  | help none => .printed helpLines
  | help (some command) => .printed command.helpLines
  | alu request => request.run
  | push request => request.run
  | regs json => showFile .initial json

/-- What is seen of a run with these arguments, or the usage fault that they are. -/
def run (args : List String) : Except UsageFault Transcript :=
  (readRequest args).map Request.run

/-- What is seen of a usage fault. -/
def UsageFault.transcript (f : UsageFault) : Transcript :=
  ⟨2, [], ["error: " ++ String.ofList f.shown]⟩

end Datapath.CommandLine
