import Montage.Export.Effect

/-!
Tempo: a factor split into stages that each stretch by one half up to two.

Whole halvings or doublings come first, then what remains, unless it is within a thousandth
of one.
-/

namespace Montage

def tempoLeast : Number := .float (Binary64.ofRatio false unitsInOne 2)

def tempoMost : Number := .float (Binary64.ofInt 2)

def tempoTolerance : Number := .float (Binary64.ofRatio false unitsInOne 1000)

/-- More whole stages than the range of binary64 can ask for. -/
def tempoFuel : Nat := 2100

/-- Dividing by `step` while `outside` holds: how often, and what remains. -/
def divideOut (outside : Number → Bool) (step : Number) :
    Nat → Number → Except Fault (Nat × Number)
  | 0, rest => .ok (0, rest)
  | fuel + 1, rest =>
    if outside rest then do
      let (n, last) ← divideOut outside step fuel (← rest.div step)
      return (n + 1, last)
    else .ok (0, rest)

/-- The factors of a tempo; none for a tempo of one and for what is no tempo. -/
def tempoFactors (tempo : Number) : Except Fault (List Number) := do
  if !(← tempo.toBinary64).isFinite || tempo.le 0 || tempo.eq 1 then return []
  let (halves, rest) ← divideOut (·.lt tempoLeast) tempoLeast tempoFuel tempo
  let (doubles, rest) ← divideOut (tempoMost.lt ·) tempoMost tempoFuel rest
  let whole := List.replicate halves tempoLeast ++ List.replicate doubles tempoMost
  let residue ← rest.distance 1
  return if tempoTolerance.lt residue then whole ++ [rest] else whole

/-- The stages of a tempo. -/
def tempoChain (tempo : Option Number) : Except Fault (List Stage) :=
  match tempo with
  | none => .ok []
  | some t => do return (← tempoFactors t).map Stage.tempo

/-- The ratio of a shift of pitch by semitones. -/
def pitchRatio (pitch : Number) : Except Fault Number := do
  return .float (← powTwo? (← (← pitch.div (.float (Binary64.ofInt 12))).toBinary64))

/-- The sample rate as a number. -/
def rateNumber : Document → Except Fault Number
  | .text _ => .error .scaledText
  | d =>
    match d.number? with
    | some x => .ok x
    | none => .error (.numberKind d.kind)

/-- The stages of a speed and a shift of pitch.  A changed sample rate shifts pitch and speed
together, so the tempo makes up only for the rest of the speed. -/
def tempoStages (speed pitch : Option Number) (sampleRate : Document) :
    Except Fault (List Stage) := do
  let pitch := (pitch.filter (!·.isZero)).getD 0
  let ratio ← pitchRatio pitch
  let tempo ← ((speed.filter (!·.isZero)).getD 1).div ratio
  let rate ← stageIf (!pitch.isZero) do
    return .setRate (← (← rateNumber sampleRate).mul ratio)
  return rate ++ (← tempoChain (some tempo))

end Montage
