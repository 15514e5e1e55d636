import Grapnel.Guest.Tree

namespace Grapnel.Guest

inductive BaseFunction where
  | assert | collect | error | getmetatable | ipairs | load | next | pairs | pcall
  | rawequal | rawget | rawlen | rawset | select | setmetatable
  | tonumber | tostring | type | xpcall
  /-- The step function of `ipairs`. -/
  | ipairsStep
deriving DecidableEq, Inhabited

inductive CoroutineFunction where
  | close | create | isyieldable | resume | running | status | wrap | yield
deriving DecidableEq, Inhabited

inductive StringFunction where
  | byte | char | find | format | gmatch | gsub | len | lower | «match» | rep | reverse | sub | upper
  | binary (op : BinaryOp)
  | negate
deriving DecidableEq, Inhabited

inductive TableFunction where
  | concat | insert | move | pack | remove | sort | unpack
deriving DecidableEq, Inhabited

inductive MathFunction where
  | abs | ceil | floor | fmod | max | min | modf | sqrt | tointeger | type | ult
  | exp | log | sin | cos | tan | asin | acos | atan
deriving DecidableEq, Inhabited

inductive Utf8Function where
  | char | codepoint | codes | len | offset
  | codesStep
deriving DecidableEq, Inhabited

inductive ClockFunction where
  | clock | date | difftime | time
deriving DecidableEq, Inhabited

inductive TaskFunction where
  | schedule | wait | cancel | sleep
deriving DecidableEq, Inhabited

inductive SignalFunction where
  | create | connect | fire | destroy
  | connectionIndex
  | disconnect
deriving DecidableEq, Inhabited

inductive ClosureFunction where
  | hook | wrap | copy | isOurs | callerIsHost
deriving DecidableEq, Inhabited

inductive FileFunction where
  | read | write | append | isFile | isFolder | makeFolder | list | deleteFile | deleteFolder
  | load | run
deriving DecidableEq, Inhabited

/-- What else the host adds to the guest's libraries. -/
inductive HostFunction where
  | print | warn | loadText | setClipboard | identify | globals
  | failureText
deriving DecidableEq, Inhabited

inductive Builtin where
  | base (f : BaseFunction)
  | coroutine (f : CoroutineFunction)
  | string (f : StringFunction)
  | table (f : TableFunction)
  | math (f : MathFunction)
  | utf8 (f : Utf8Function)
  | clock (f : ClockFunction)
  | task (f : TaskFunction)
  | signal (f : SignalFunction)
  | closure (f : ClosureFunction)
  | file (f : FileFunction)
  | host (f : HostFunction)
deriving DecidableEq, Inhabited

namespace Builtin

abbrev Library := List (String × Builtin)

def baseLibrary : Library :=
  [("assert", .base .assert), ("collectgarbage", .base .collect), ("error", .base .error),
    ("getmetatable", .base .getmetatable), ("ipairs", .base .ipairs), ("load", .base .load),
    ("next", .base .next), ("pairs", .base .pairs), ("pcall", .base .pcall),
    ("rawequal", .base .rawequal), ("rawget", .base .rawget), ("rawlen", .base .rawlen),
    ("rawset", .base .rawset), ("select", .base .select), ("setmetatable", .base .setmetatable),
    ("tonumber", .base .tonumber), ("tostring", .base .tostring), ("type", .base .type),
    ("xpcall", .base .xpcall)]

def coroutineLibrary : Library :=
  [("close", .coroutine .close), ("create", .coroutine .create),
    ("isyieldable", .coroutine .isyieldable), ("resume", .coroutine .resume),
    ("running", .coroutine .running), ("status", .coroutine .status), ("wrap", .coroutine .wrap),
    ("yield", .coroutine .yield)]

def stringLibrary : Library :=
  [("byte", .string .byte), ("char", .string .char), ("find", .string .find),
    ("format", .string .format), ("gmatch", .string .gmatch), ("gsub", .string .gsub),
    ("len", .string .len), ("lower", .string .lower), ("match", .string .match),
    ("rep", .string .rep), ("reverse", .string .reverse), ("sub", .string .sub),
    ("upper", .string .upper)]

/-- What the metatable of texts holds besides the string library. -/
def stringEvents : Library :=
  [("__add", .string (.binary .add)), ("__sub", .string (.binary .sub)),
    ("__mul", .string (.binary .mul)), ("__mod", .string (.binary .mod)),
    ("__pow", .string (.binary .pow)), ("__div", .string (.binary .div)),
    ("__idiv", .string (.binary .floorDiv)), ("__unm", .string .negate)]

def tableLibrary : Library :=
  [("concat", .table .concat), ("insert", .table .insert), ("move", .table .move),
    ("pack", .table .pack), ("remove", .table .remove), ("sort", .table .sort),
    ("unpack", .table .unpack)]

def mathLibrary : Library :=
  [("abs", .math .abs), ("ceil", .math .ceil), ("floor", .math .floor), ("fmod", .math .fmod),
    ("max", .math .max), ("min", .math .min), ("modf", .math .modf), ("sqrt", .math .sqrt),
    ("tointeger", .math .tointeger), ("type", .math .type), ("ult", .math .ult),
    ("exp", .math .exp), ("log", .math .log), ("sin", .math .sin), ("cos", .math .cos),
    ("tan", .math .tan), ("asin", .math .asin), ("acos", .math .acos), ("atan", .math .atan)]

def utf8Library : Library :=
  [("char", .utf8 .char), ("codepoint", .utf8 .codepoint), ("codes", .utf8 .codes),
    ("len", .utf8 .len), ("offset", .utf8 .offset)]

def clockLibrary : Library :=
  [("clock", .clock .clock), ("date", .clock .date), ("difftime", .clock .difftime),
    ("time", .clock .time)]

/-- The libraries that are globals of their own. -/
def libraries : List (String × Library) :=
  [("coroutine", coroutineLibrary), ("string", stringLibrary), ("table", tableLibrary),
    ("math", mathLibrary), ("utf8", utf8Library), ("os", clockLibrary)]

def preludeLibrary : Library :=
  [("task_schedule", .task .schedule), ("task_wait", .task .wait), ("task_cancel", .task .cancel),
    ("sleep", .task .sleep),
    ("signal_create", .signal .create), ("signal_connect", .signal .connect),
    ("signal_fire", .signal .fire), ("signal_destroy", .signal .destroy)]

/-- What the host adds to the globals; some functions have two names. -/
def hostLibrary : Library :=
  [("print", .host .print), ("warn", .host .warn), ("hookfunction", .closure .hook),
    ("replaceclosure", .closure .hook), ("newcclosure", .closure .wrap),
    ("clonefunction", .closure .copy), ("isourclosure", .closure .isOurs),
    ("isexecutorclosure", .closure .isOurs), ("checkcaller", .closure .callerIsHost),
    ("loadstring", .host .loadText), ("readfile", .file .read), ("writefile", .file .write),
    ("appendfile", .file .append), ("isfile", .file .isFile), ("isfolder", .file .isFolder),
    ("makefolder", .file .makeFolder), ("listfiles", .file .list),
    ("delfile", .file .deleteFile), ("delfolder", .file .deleteFolder),
    ("loadfile", .file .load), ("dofile", .file .run),
    ("setclipboard", .host .setClipboard), ("identifyexecutor", .host .identify),
    ("getgenv", .host .globals)]

end Builtin

end Grapnel.Guest
