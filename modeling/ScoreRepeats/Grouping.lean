import ScoreRepeats.Violation

/-!
# Grouping bars into regions

A grouping takes the bars of a score one by one and collects them into regions.

* Bars without marks gather in an open run.
* A repeat start closes the open run and opens a marked one. A repeat end closes the open run as a
  repeated passage; without a start the repeat reaches back to the end of the region before.
* A bar of the first variation makes the open run, or a repeat that was closed just before, the
  common passage of a region with variations. Bars of one variation follow each other, the next
  number starts the next variation, and a bar without a number closes the region. A repeat end in a
  variation has no effect.
* The first jump instruction decides the kind of the structure.

`Grouping.add` takes a bar or refuses it, and `Structure.ofBars` groups a whole score by it.
`Grouping.respond` also goes on after a refusal, from what `afterRefusal` and `afterBuild` leave.
-/

set_option autoImplicit false
set_option relaxedAutoImplicit false

namespace ScoreRepeats

/-- What is still open at the end of the bars so far. -/
inductive Pending
  | nothing
  /-- A run of bars; whether a repeat start opened it; the position of its first bar. -/
  | run (bars : BarRun) (marked : Bool) (start : Nat)
  /-- A region with variations, of which the last may still grow. -/
  | variations (common : Passage) (earlier : List BarRun) (current : BarRun)
  deriving DecidableEq, Repr

/-- The state of grouping. -/
structure Grouping where
  /-- The ids of all bars that were offered, in order. -/
  offered : List String
  /-- The closed regions, the latest first. -/
  closed : List Region
  pending : Pending
  kind : Kind
  deriving DecidableEq, Repr

namespace Grouping

def start : Grouping := ⟨[], [], .nothing, .bare⟩

/-- The kind after one more bar; the first jump instruction decides it. -/
def kindWith (kind : Kind) (bar : Bar) : Kind :=
  match kind with
  | .bare =>
    if bar.has .dalSegno then .dalSegno else if bar.has .daCapo then .daCapo else .bare
  | kind => kind

/-- Closes a region with variations, if one is open. -/
def closeVariations (state : Grouping) : Grouping :=
  match state.pending with
  | .variations common earlier current =>
    { state with
      closed := .varied common (NonemptyList.snoc earlier current) :: state.closed
      pending := .nothing }
  | _ => state

/-- Closes the open run as a straight passage, unless it must become a repeat. -/
def closeRun (state : Grouping) (violation : (first : Bar) → (start : Nat) → Violation) :
    Except Refusal Grouping :=
  match state.pending with
  | .run bars true start => .error (violation bars.head start).refusal
  | .run bars false _ =>
    .ok { state with closed := .plain (.straight bars) :: state.closed, pending := .nothing }
  | _ => .ok state

/-- Puts a bar at the end of the open run, or opens a run with it. -/
def extendRun (state : Grouping) (bar : Bar) (marked : Bool) (position : Nat) : Grouping :=
  match state.pending with
  | .run bars marked start => { state with pending := .run (bars.push bar) marked start }
  | _ => { state with pending := .run ⟨bar, []⟩ marked position }

/-- Closes the open run as a repeated passage. -/
def closeRepeat (state : Grouping) : Grouping :=
  match state.pending with
  | .run bars _ _ =>
    { state with closed := .plain (.repeated bars) :: state.closed, pending := .nothing }
  | _ => state

/-- Closes what has to be closed before a bar that belongs to no variation. -/
def makeRoom (state : Grouping) (bar : Bar) (position : Nat) : Except Refusal Grouping :=
  if bar.has .repeatStart then
    state.closeVariations.closeRun fun first start ↦ .repeatInsideRepeat first.id start position
  else .ok state.closeVariations

/-- Takes a bar that belongs to no variation. -/
def addPlain (state : Grouping) (bar : Bar) (position : Nat) : Except Refusal Grouping :=
  (state.makeRoom bar position).map fun ready ↦
    let extended := ready.extendRun bar (bar.has .repeatStart) position
    if bar.has .repeatEnd then extended.closeRepeat else extended

/-- Takes a bar of a variation. -/
def addVariation (state : Grouping) (bar : Bar) (number position : Nat) :
    Except Refusal Grouping :=
  match state.pending with
  | .variations common earlier current =>
    let count := earlier.length + 1
    if number = count then
      .ok { state with pending := .variations common earlier (current.push bar) }
    else if number = count + 1 then
      .ok { state with pending := .variations common (earlier ++ [current]) ⟨bar, []⟩ }
    else .error (Violation.variationOutOfTurn bar.id number count position).refusal
  | .run bars _ _ =>
    if number = 1 then .ok { state with pending := .variations (.straight bars) [] ⟨bar, []⟩ }
    else .error (Violation.variationBeforeFirst bar.id number position).refusal
  | .nothing =>
    if number = 1 then
      match state.closed with
      | .plain (.repeated bars) :: closed =>
        .ok { state with closed, pending := .variations (.repeated bars) [] ⟨bar, []⟩ }
      | _ => .error (Violation.noCommonPassage bar.id position).refusal
    else .error (Violation.variationBeforeFirst bar.id number position).refusal

/-- Remembers that a bar was offered. -/
def remember (state : Grouping) (bar : Bar) : Grouping :=
  { state with offered := state.offered ++ [bar.id] }

/-- Takes the next bar of the score. -/
def add (state : Grouping) (bar : Bar) : Except Refusal Grouping :=
  let position := state.offered.length
  if bar.id ∈ state.offered then
    .error (Violation.repeatedId bar.id (state.offered.idxOf bar.id) position).refusal
  else
    let known := { state.remember bar with kind := kindWith state.kind bar }
    match bar.variation with
    | none => known.addPlain bar position
    | some number => known.addVariation bar number position

/-- What a refused bar leaves behind. A bar whose id is known is only counted; with a new id, all is
done that comes before the refusal: the bar decides the kind, and closes the variations if it belongs
to none. -/
def afterRefusal (state : Grouping) (bar : Bar) : Grouping :=
  if bar.id ∈ state.offered then state.remember bar
  else
    let known := { state.remember bar with kind := kindWith state.kind bar }
    match bar.variation with
    | none => known.closeVariations
    | some _ => known

/-- Takes the next bar, or refuses it and goes on. -/
def feed (state : Grouping) (bar : Bar) : Grouping × Option Refusal :=
  match state.add bar with
  | .ok next => (next, none)
  | .error refusal => (state.afterRefusal bar, some refusal)

/-- Closes all that is open. -/
def settle (state : Grouping) : Except Refusal Grouping :=
  state.closeVariations.closeRun fun first start ↦ .repeatNeverClosed first.id start

/-- The structure of the bars so far, and the grouping with all regions closed. -/
def build (state : Grouping) : Except Refusal (Structure × Grouping) :=
  match state.settle with
  | .error refusal => .error refusal
  | .ok settled =>
    match settled.closed with
    | [] => .error Violation.noBars.refusal
    | latest :: earlier =>
      .ok (.ofRegions (NonemptyList.snoc earlier.reverse latest) settled.kind, settled)

/-- What a structure was asked for leaves behind: all regions closed, or only the variations if a
repeat is open. -/
def afterBuild (state : Grouping) : Grouping :=
  match state.settle with
  | .ok settled => settled
  | .error _ => state.closeVariations

/-- What can be asked of a grouping: to take a bar, or to give the structure of the bars so far. -/
inductive Request
  | offer (bar : Bar)
  | build
  deriving DecidableEq, Repr

/-- How a grouping answers. -/
inductive Answer
  | accepted
  | built (piece : Structure)
  | refused (refusal : Refusal)
  deriving DecidableEq, Repr

/-- Answers a request and goes on, also after a refusal. -/
def respond (state : Grouping) : Request → Grouping × Answer
  | .offer bar =>
    match state.feed bar with
    | (next, none) => (next, .accepted)
    | (next, some refusal) => (next, .refused refusal)
  | .build =>
    match state.build with
    | .ok (piece, _) => (state.afterBuild, .built piece)
    | .error refusal => (state.afterBuild, .refused refusal)

/-- The grouping after some requests. -/
def after (state : Grouping) (requests : List Request) : Grouping :=
  requests.foldl (fun state request ↦ (state.respond request).1) state

end Grouping

/-- The structure of a score, if its bars can be grouped. -/
def Structure.ofBars (bars : List Bar) : Except Refusal Structure :=
  match bars.foldlM Grouping.add Grouping.start with
  | .error refusal => .error refusal
  | .ok state => state.build.map Prod.fst

end ScoreRepeats
