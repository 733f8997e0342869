import HostServices.Text.Blank

/-!
# Categories

Every tracked block and region is charged to one category. The order of the constructors is the
order of reports.
-/

namespace HostServices

/-- The subsystem that memory is charged to. -/
inductive Category
  | javaHeap
  | classData
  | thread
  | threadStack
  | code
  | gc
  | compiler
  | runtime
  | other
  | symbol
  | tracking
  | chunk
  | test
  | tracing
  | logging
  | arguments
  | modules
  | safepoint
  | synchronizer
  | serviceability
  | metaspace
  | stringDedup
  | objectMonitor
  | uncharged
  deriving DecidableEq, Repr

/-- What a category is called: in configuration text, in reports and in encoded values. -/
structure Category.Labels where
  short : String
  display : String
  tag : String

namespace Category

/-- Every category, in report order. -/
def all : List Category :=
  [.javaHeap, .classData, .thread, .threadStack, .code, .gc, .compiler, .runtime, .other,
   .symbol, .tracking, .chunk, .test, .tracing, .logging, .arguments, .modules, .safepoint,
   .synchronizer, .serviceability, .metaspace, .stringDedup, .objectMonitor, .uncharged]

/-- The names of each category. -/
def labels : Category → Labels
  | .javaHeap => ⟨"javaheap", "Java Heap", "JavaHeap"⟩
  | .classData => ⟨"class", "Class", "Class"⟩
  | .thread => ⟨"thread", "Thread", "Thread"⟩
  | .threadStack => ⟨"threadstack", "Thread Stack", "ThreadStack"⟩
  | .code => ⟨"code", "Code", "Code"⟩
  | .gc => ⟨"gc", "GC", "Gc"⟩
  | .compiler => ⟨"compiler", "Compiler", "Compiler"⟩
  | .runtime => ⟨"internal", "Internal", "Internal"⟩
  | .other => ⟨"other", "Other", "Other"⟩
  | .symbol => ⟨"symbol", "Symbol", "Symbol"⟩
  | .tracking => ⟨"nmt", "Native Memory Tracking", "Nmt"⟩
  | .chunk => ⟨"chunk", "Arena Chunk", "Chunk"⟩
  | .test => ⟨"test", "Test", "Test"⟩
  | .tracing => ⟨"tracing", "Tracing", "Tracing"⟩
  | .logging => ⟨"logging", "Logging", "Logging"⟩
  | .arguments => ⟨"arguments", "Arguments", "Arguments"⟩
  | .modules => ⟨"module", "Module", "Module"⟩
  | .safepoint => ⟨"safepoint", "Safepoint", "Safepoint"⟩
  | .synchronizer => ⟨"synchronizer", "Synchronization", "Synchronizer"⟩
  | .serviceability => ⟨"serviceability", "Serviceability", "Serviceability"⟩
  | .metaspace => ⟨"metaspace", "Metaspace", "Metaspace"⟩
  | .stringDedup => ⟨"stringdedup", "String Deduplication", "StringDedup"⟩
  | .objectMonitor => ⟨"objectmonitor", "Object Monitors", "ObjectMonitor"⟩
  | .uncharged => ⟨"none", "Unknown", "None"⟩

/-- The place of a category in report order. -/
def index (c : Category) : Nat :=
  c.ctorIdx

/-- The category at a place in report order. -/
def ofIndex? (i : Nat) : Option Category :=
  all[i]?

/-- The name in configuration text. -/
def shortName (c : Category) : String :=
  c.labels.short

/-- The name in reports. -/
def displayName (c : Category) : String :=
  c.labels.display

/-- The category with the short name `cs`. -/
def ofShortName? (cs : List Char) : Option Category :=
  all.find? fun c => c.shortName.toList = cs

/-- `cs` with its ASCII letters in lower case and no blanks at the ends. -/
def normalize (cs : List Char) : List Char :=
  (Text.trim cs).map Char.toLower

/-- The category named by configuration text: its short name in any case, with or without a
leading `mt`. -/
def ofName? (cs : List Char) : Option Category :=
  let name := normalize cs
  (ofShortName? name).or
    (match name with
     | 'm' :: 't' :: rest => ofShortName? rest
     | _ => none)

theorem mem_all (c : Category) : c ∈ all := by
  cases c <;> decide

theorem ofIndex?_index (c : Category) : ofIndex? c.index = some c := by
  cases c <;> rfl

end Category

end HostServices
