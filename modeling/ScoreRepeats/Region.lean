import ScoreRepeats.Bar
import ScoreRepeats.NonemptyList

/-!
# Regions

The pieces that a score falls into: a passage that is played straight through, a passage between
repeat marks, and a passage with alternate endings. Every region has bars (`Region.bars_ne_nil`);
its first and last bar are the ends of `Region.bars`.
-/

set_option autoImplicit false
set_option relaxedAutoImplicit false

namespace ScoreRepeats

/-- Bars that follow each other. -/
abbrev BarRun := NonemptyList Bar

/-- Why regions cannot be put together by hand. -/
inductive AssemblyError
  | emptyRun
  | noVariations
  | noRegions
  | unknownKind (name : String) (known : List String)
  deriving DecidableEq, Repr

def AssemblyError.message : AssemblyError → String
  | .emptyRun => "A sequence region needs at least one bar"
  | .noVariations => "A variation region needs at least one variation"
  | .noRegions => "A compound region needs at least one region"
  | .unknownKind name known =>
    "Unknown structure kind " ++ Text.quoted name ++ ". Expected one of " ++ quotedList known

def BarRun.ofBars (bars : List Bar) : Except AssemblyError BarRun :=
  match NonemptyList.ofList? bars with
  | none => .error .emptyRun
  | some run => .ok run

/-- A run of bars, with or without repeat marks around it. -/
inductive Passage
  | straight (run : BarRun)
  | repeated (run : BarRun)
  deriving DecidableEq, Repr

namespace Passage

def run : Passage → BarRun
  | .straight run | .repeated run => run

def bars (passage : Passage) : List Bar := passage.run.toList

def firstBar (passage : Passage) : Bar := passage.run.head

@[simp] theorem length_bars (passage : Passage) : passage.bars.length = passage.run.length :=
  passage.run.length_toList

end Passage

/-- A region of a score: a passage, or a common passage with its variations. -/
inductive Region
  | plain (passage : Passage)
  | varied (common : Passage) (variations : NonemptyList BarRun)
  deriving DecidableEq, Repr

namespace Region

def ofVariations (common : Passage) (variations : List BarRun) : Except AssemblyError Region :=
  match NonemptyList.ofList? variations with
  | none => .error .noVariations
  | some variations => .ok (.varied common variations)

/-- The bars in written order: those of the common passage, then those of each variation. -/
def bars : Region → List Bar
  | .plain passage => passage.bars
  | .varied common variations => common.bars ++ variations.toList.flatMap NonemptyList.toList

def firstBar : Region → Bar
  | .plain passage => passage.firstBar
  | .varied common _ => common.firstBar

def lastBar : Region → Bar
  | .plain passage => passage.run.last
  | .varied _ variations => variations.last.last

theorem head?_bars (region : Region) : region.bars.head? = some region.firstBar := by
  cases region <;> rfl

theorem bars_ne_nil (region : Region) : region.bars ≠ [] := by
  intro h
  simpa [h] using region.head?_bars

theorem getLast?_bars (region : Region) : region.bars.getLast? = some region.lastBar := by
  cases region with
  | plain passage => exact passage.run.getLast?_toList
  | varied common variations =>
    obtain ⟨earlier, split⟩ := List.getLast?_eq_some_iff.1 variations.getLast?_toList
    simp [bars, lastBar, split, NonemptyList.getLast?_toList]

end Region

end ScoreRepeats
