import RangeScript.Main
import RangeScript.Proofs.Fold
import RangeScript.Proofs.Reading
import RangeScript.Proofs.Productions
import RangeScript.Proofs.Exactness
import RangeScript.Proofs.Locality
import RangeScript.Proofs.Offending
import RangeScript.Proofs.Equality
import RangeScript.Proofs.History
import RangeScript.Proofs.Journal
import RangeScript.Proofs.Surface
import RangeScript.Proofs.Outcomes
import RangeScript.Proofs.Operators
import RangeScript.Proofs.PrecedenceTree
import RangeScript.Proofs.ScopeRelation
import RangeScript.Proofs.LockStep
import RangeScript.Proofs.Inhabitation
import RangeScript.Proofs.Comparison
import RangeScript.Proofs.ClosureSoundness
import RangeScript.Proofs.SurfaceTyping
import RangeScript.Proofs.HostSoundness
import RangeScript.Proofs.Preservation
import RangeScript.Proofs.LambdaDepth
import RangeScript.Proofs.Monotonicity
import RangeScript.Proofs.Rejection
import RangeScript.Proofs.SecondClass
import RangeScript.Proofs.Termination
import RangeScript.Proofs.Homogeneity
import RangeScript.Proofs.ExactArithmetic
import RangeScript.Proofs.ExactSimulation
import RangeScript.Proofs.ExactSessions
import RangeScript.Proofs.Relocation
import RangeScript.Proofs.MovedTokens
import RangeScript.Proofs.TokenTexts
import RangeScript.Proofs.Spacing
import RangeScript.Proofs.Layout
import RangeScript.Proofs.RoundTrip
import RangeScript.Proofs.UpToPositions
import RangeScript.Proofs.PositionIndependence
import RangeScript.Proofs.DecimalText
import RangeScript.Proofs.FreeNames
import RangeScript.Proofs.Correspondence
import RangeScript.Proofs.CorrespondingRuns
import RangeScript.Proofs.UnusedNames
import RangeScript.Proofs.ParameterNames
import RangeScript.Proofs.Instantiation
import RangeScript.Proofs.IntegerChains
import RangeScript.Proofs.TokenPlaces
import RangeScript.Proofs.LongestMatch
import RangeScript.Proofs.FoldFailure
import RangeScript.Proofs.ChainTypes
import RangeScript.Proofs.RangeElements
import RangeScript.Proofs.Splitting
import RangeScript.Proofs.Unambiguity
import RangeScript.Proofs.IntegerLiterals
import RangeScript.Proofs.SeparateFlags
import RangeScript.Proofs.ArgumentChecks
