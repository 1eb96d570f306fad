import ScoreRepeats.CommandLine
import ScoreRepeats.Main
import ScoreRepeats.Proofs.GroupingAcceptance
import ScoreRepeats.Proofs.ResolvedOrder
import ScoreRepeats.Proofs.ValidationRules
import ScoreRepeats.Proofs.ValidResolution
import ScoreRepeats.Proofs.SkippedPlaces
import ScoreRepeats.Proofs.AlFine
import ScoreRepeats.Proofs.PassCounts
import ScoreRepeats.Proofs.GroupingRefusal
import ScoreRepeats.Proofs.GroupingSession
import ScoreRepeats.Proofs.ViolationPlaces
import ScoreRepeats.Proofs.BarTokens
import ScoreRepeats.Proofs.SpacedTokens
import ScoreRepeats.Proofs.LosslessTokens
import ScoreRepeats.Proofs.TokenRoles
import ScoreRepeats.Proofs.NotationGrammar
import ScoreRepeats.Proofs.NotationErrors
import ScoreRepeats.Proofs.NotationSpellings
import ScoreRepeats.Proofs.Noninterference
import ScoreRepeats.Proofs.RepeatMarks
import ScoreRepeats.Proofs.ScoreForms
import ScoreRepeats.Proofs.CommandLineReports
import ScoreRepeats.Proofs.JoinedScores
import ScoreRepeats.Proofs.PickupReplay
import ScoreRepeats.Proofs.UnvalidatedResolution
import ScoreRepeats.Proofs.FieldTypes
import ScoreRepeats.Proofs.JoinedNotations
import ScoreRepeats.Proofs.PieceLayout
import ScoreRepeats.Proofs.PieceTraversal
import ScoreRepeats.Proofs.ResolvedTimeline
import ScoreRepeats.Proofs.RhythmSpellings
