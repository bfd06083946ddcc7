import RecordGraph.Session

/-!
# The command line

Arguments are options, which may stand anywhere, and a command with what it is applied to. A command
answers at once, or asks for a file and answers from its content.
-/

namespace RecordGraph.CommandLine

structure Answer where
  output : String
  errors : String
  code : UInt32
deriving DecidableEq, Repr

namespace Answer

def success (output : String) : Answer := ⟨output, "", 0⟩

def failure (output errors : String) : Answer := ⟨output, errors, 1⟩

end Answer

inductive Inspection where
  | dump
  | outline
  | query (paths : List String)
  | walk
deriving DecidableEq, Repr

inductive Request where
  | answered (answer : Answer)
  | inspect (file : String) (inspection : Inspection) (untyped robust : Bool)
deriving DecidableEq, Repr

def usage : String :=
  String.intercalate "\n"
    ["LSF structure file inspector",
     "",
     "Usage: lsfc <command> [options]",
     "",
     "Commands:",
     "  dump <file>             Write the file's records back in LSF notation",
     "  outline <file>          Show one `type : name` line per node",
     "  query <file> <path>...  Resolve each path against the file's records",
     "  walk <file>             List top-level records with loops and guards expanded",
     "  types                   List the registered type names",
     "  help                    Show this help message",
     "  version                 Show version information",
     "",
     "Options:",
     "  --robust                Recover from malformed paths instead of failing them",
     "  --untyped               Read `name=value` headers as values, not types",
     "",
     "Environment:",
     "  RUST_LOG=lsf_eval=trace  Enable diagnostic logging on stderr",
     "  LSF_LOG_TREE=1           Draw logged spans as a tree",
     "",
     "Examples:",
     "  lsfc dump model.lsf",
     "  lsfc query model.lsf 'pedigree[0].sex' '$(cursor).name'",
     "  lsfc walk model.lsf --robust",
     ""]

def knownOptions : List String :=
  ["--robust", "--untyped", "--help", "--version"]

def isUnknownOption (argument : String) : Bool :=
  argument.startsWith "--" && !knownOptions.contains argument

def positional (arguments : List String) : List String :=
  arguments.filter fun argument => argument ≠ "--robust" && argument ≠ "--untyped"

def onFile (command : String) (operands : List String) (inspection : Inspection)
    (untyped robust : Bool) : Request :=
  match operands with
  | [file] => .inspect file inspection untyped robust
  | _ => .answered (.failure "" ("Usage: lsfc " ++ command ++ " <file>\n"))

def ofCommand (command : String) (operands : List String) (untyped robust : Bool) : Request :=
  match command with
  | "dump" => onFile command operands .dump untyped robust
  | "outline" => onFile command operands .outline untyped robust
  | "walk" => onFile command operands .walk untyped robust
  | "query" =>
    match operands with
    | file :: path :: paths => .inspect file (.query (path :: paths)) untyped robust
    | _ => .answered (.failure "" "Usage: lsfc query <file> <path>...\n")
  | "types" => .answered (.success (Session.typeList .standard))
  | "help" | "--help" | "-h" => .answered (.success usage)
  | "version" | "--version" | "-v" => .answered (.success "lsfc 0.1.0\n")
  | _ => .answered (.failure usage ("Unknown command: " ++ command ++ "\n\n"))

def ofArguments (arguments : List String) : Request :=
  match arguments.find? isUnknownOption with
  | some unknown => .answered (.failure "" ("Unknown option: " ++ unknown ++ "\n"))
  | none =>
    let untyped := arguments.contains "--untyped"
    let robust := arguments.contains "--robust"
    match positional arguments with
    | [] => .answered (.failure usage "")
    | command :: operands => ofCommand command operands untyped robust

def unreadable (file : String) (reason : ReadError) : String :=
  "cannot read `" ++ file ++ "`: " ++ reason.message

def inspect (session : Session) (inspection : Inspection) (robust : Bool) : String :=
  match inspection with
  | .dump => session.dump
  | .outline => session.outline
  | .query paths => (session.query paths robust).text
  | .walk => ((session.walk robust Walk.patience).map (·.text)).getD ""

def answer (request : Request) (readFile : String → Except ReadError String) : Answer :=
  match request with
  | .answered answer => answer
  | .inspect file inspection untyped robust =>
    match readFile file with
    | .error reason => .failure "" ("error: " ++ unreadable file reason ++ "\n")
    | .ok source =>
      let session := Session.ofFile file source ⟨!untyped⟩
      ⟨inspect session inspection robust, session.warningReport, 0⟩

def run (files : FileTree) (arguments : List String) : Answer :=
  answer (ofArguments arguments) files.read

def Request.file? : Request → Option String
  | answered _ => none
  | inspect file _ _ _ => some file

end RecordGraph.CommandLine
