import LockDiscipline.Config.Preset

namespace LockDiscipline.Config

/-- Settings of the lock order recorder. -/
structure RecorderSettings where
  /-- Whether each new order edge keeps a backtrace. -/
  captureBacktrace : Bool
  /-- Whether each new witness is logged as it is recorded. -/
  echoWitnesses : Bool
  /-- Whether a violation stops the thread that causes it. -/
  strict : Bool
  /-- After how many new edges dead classifiers are swept. -/
  sweepEvery : UInt64
  deriving DecidableEq, Repr

namespace RecorderSettings

def ofPreset : Preset → RecorderSettings
  | .quiet => ⟨false, false, false, 4096⟩
  | .balanced | .custom => ⟨true, false, false, 1024⟩
  | .strict => ⟨true, true, true, 256⟩

inductive Edit where
  | captureBacktrace (b : Bool)
  | echoWitnesses (b : Bool)
  | strict (b : Bool)
  | sweepEvery (n : UInt64)
  deriving DecidableEq, Repr

def edit (s : RecorderSettings) : Edit → RecorderSettings
  | .captureBacktrace b => { s with captureBacktrace := b }
  | .echoWitnesses b => { s with echoWitnesses := b }
  | .strict b => { s with strict := b }
  | .sweepEvery n => { s with sweepEvery := n }

/-- The edits from left to right. -/
def editAll (s : RecorderSettings) (es : List Edit) : RecorderSettings := es.foldl edit s

end RecorderSettings

/-- Settings of the sampling observer. -/
structure SamplerSettings where
  /-- Milliseconds from one sample to the next. -/
  intervalMs : UInt64
  /-- The start of the lock names that are kept; all are kept where it is absent. -/
  nameSpace : Option String
  deriving DecidableEq, Repr

namespace SamplerSettings

def ofPreset : Preset → SamplerSettings
  | .quiet => ⟨10, none⟩
  | .balanced | .custom => ⟨2, none⟩
  | .strict => ⟨1, none⟩

inductive Edit where
  | intervalMs (n : UInt64)
  | nameSpace (s : String)
  deriving DecidableEq, Repr

def edit (s : SamplerSettings) : Edit → SamplerSettings
  | .intervalMs n => { s with intervalMs := n }
  | .nameSpace n => { s with nameSpace := some n }

/-- The edits from left to right. -/
def editAll (s : SamplerSettings) (es : List Edit) : SamplerSettings := es.foldl edit s

end SamplerSettings

/-- Settings of the guard against concurrent access. -/
structure GuardSettings where
  /-- How many milliseconds a checked object stays marked. -/
  windowMs : UInt64
  deriving DecidableEq, Repr

namespace GuardSettings

def ofPreset : Preset → GuardSettings
  | .strict => ⟨2⟩
  | _ => ⟨1⟩

inductive Edit where
  | windowMs (n : UInt64)
  deriving DecidableEq, Repr

def edit (_ : GuardSettings) : Edit → GuardSettings
  | .windowMs n => ⟨n⟩

/-- The edits from left to right. -/
def editAll (s : GuardSettings) (es : List Edit) : GuardSettings := es.foldl edit s

end GuardSettings

end LockDiscipline.Config
