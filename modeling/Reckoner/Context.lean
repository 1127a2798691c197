import Reckoner.Cache
import Reckoner.Counting
import Reckoner.Key
import Reckoner.Pool
import Reckoner.Samples

/-!
Contexts of calculation: the numeric primitives, each with a cache of its results, together with a
pool of scratch buffers and the samples of timed work. A primitive's answer is never changed by what
was asked before, and no primitive touches the cache of another.
-/

namespace Reckoner

inductive Elementary where
  | sin
  | cos
  | tan
  | ln
  | log10
  deriving DecidableEq

def Elementary.apply : Elementary → Float → Float
  | .sin => Float.sin
  | .cos => Float.cos
  | .tan => Float.tan
  | .ln => Float.log
  | .log10 => Float.log10

inductive Primitive where
  | elementary (function : Elementary)
  | factorial
  | combination
  | permutation
  deriving DecidableEq

namespace Primitive

def all : List Primitive :=
  [.elementary .sin, .elementary .cos, .elementary .tan, .elementary .ln, .elementary .log10,
    .factorial, .combination, .permutation]

def name : Primitive → String
  | .elementary .sin => "sin"
  | .elementary .cos => "cos"
  | .elementary .tan => "tan"
  | .elementary .ln => "ln"
  | .elementary .log10 => "log10"
  | .factorial => "factorial"
  | .combination => "combination"
  | .permutation => "permutation"

def place : Primitive → Fin 8
  | .elementary .sin => 0
  | .elementary .cos => 1
  | .elementary .tan => 2
  | .elementary .ln => 3
  | .elementary .log10 => 4
  | .factorial => 5
  | .combination => 6
  | .permutation => 7

end Primitive

inductive Request where
  | elementary (function : Elementary) (argument : Float)
  | factorial (n : Int)
  | combination (n k : Int)
  | permutation (n k : Int)

namespace Request

def primitive : Request → Primitive
  | .elementary function _ => .elementary function
  | .factorial _ => .factorial
  | .combination _ _ => .combination
  | .permutation _ _ => .permutation

def key : Request → String
  | .elementary _ argument => Key.ofFloat argument
  | .factorial n => Key.ofInt n
  | .combination n k => Key.ofPair n k
  | .permutation n k => Key.ofPair n k

def compute : Request → Except Counting.Failure Float
  | .elementary function argument => .ok (function.apply argument)
  | .factorial n => Counting.factorial n
  | .combination n k => Counting.combination n k
  | .permutation n k => Counting.permutation n k

end Request

structure Context.Options where
  trigonometric : Cache.Limits
  logarithmic : Cache.Limits
  combinatorial : Cache.Limits
  buffers : Pool.Options

def Context.Options.standard : Context.Options :=
  ⟨.standard, .standard, ⟨200, none⟩, ⟨16, 2⟩⟩

def Context.Options.limits (options : Context.Options) : Primitive → Cache.Limits
  | .elementary .sin => options.trigonometric
  | .elementary .cos => options.trigonometric
  | .elementary .tan => options.trigonometric
  | .elementary _ => options.logarithmic
  | _ => options.combinatorial

structure Context where
  caches : Vector (Cache Float) 8
  buffers : Pool (List Float)
  samples : Samples

namespace Context

def withBuffers (options : Options) (buffers : Pool (List Float)) : Context where
  caches := #v[.new options.trigonometric, .new options.trigonometric, .new options.trigonometric,
    .new options.logarithmic, .new options.logarithmic, .new options.combinatorial,
    .new options.combinatorial, .new options.combinatorial]
  buffers
  samples := .empty

def new (options : Options) : Context :=
  withBuffers options (.new options.buffers (fun _ => []) (fun _ => []))

def new? (options : Options) : Option Context :=
  (Pool.new? options.buffers (fun _ => []) (fun _ => [])).map (withBuffers options)

def cache (context : Context) (primitive : Primitive) : Cache Float :=
  context.caches[primitive.place]

def setCache (context : Context) (primitive : Primitive) (cache : Cache Float) : Context :=
  { context with caches := context.caches.set primitive.place cache }

def ask (context : Context) (now : Nat) (request : Request) :
    Context × Except Counting.Failure Float :=
  let (cache, found) := (context.cache request.primitive).get now request.key
  let looked := context.setCache request.primitive cache
  match found with
  | some value => (looked, .ok value)
  | none =>
      match request.compute with
      | .ok value =>
          (looked.setCache request.primitive (cache.set now request.key value), .ok value)
      | .error failure => (looked, .error failure)

def askAll (context : Context) (now : Nat) :
    List Request → Context × List (Except Counting.Failure Float)
  | [] => (context, [])
  | request :: rest =>
      let (context, answer) := context.ask now request
      let (context, answers) := context.askAll now rest
      (context, answer :: answers)

def clearCaches (context : Context) : Context :=
  { context with caches := context.caches.map Cache.clear }

def report (context : Context) : List (String × Cache.Stats) :=
  Primitive.all.map fun primitive => (primitive.name, (context.cache primitive).stats)

def buffer (context : Context) : Context × List Float :=
  let (buffers, buffer) := context.buffers.acquire
  ({ context with buffers }, buffer)

def recycle (context : Context) (buffer : List Float) : Context :=
  { context with buffers := context.buffers.release buffer }

/-- The figures of the caches and then of the samples, a line for each, unless a sum of samples
overflows. -/
def display? (coloured : Bool) (context : Context) : Option String :=
  let line (entry : String × Cache.Stats) : String :=
    Text.paint coloured .yellow (Text.padLeft 12 entry.1) ++ ": " ++
      entry.2.display coloured ++ "\n"
  (context.samples.display? coloured).map fun samples =>
    String.join (context.report.map line) ++ samples

def outline (context : Context) : String :=
  let item (entry : String × Cache.Stats) : String :=
    "(" ++ Text.quoted entry.1 ++ ", " ++ entry.2.outline ++ ")"
  "CalculationContext \x7b caches: [" ++ ", ".intercalate (context.report.map item) ++
    "], buffers: " ++ context.buffers.outline ++ " \x7d"

end Context

end Reckoner
