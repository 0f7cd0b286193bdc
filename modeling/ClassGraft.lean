import ClassGraft.Cli.Store
import ClassGraft.Main
import ClassGraft.Proofs.CodeRoundTrip
import ClassGraft.Proofs.IndexKinds
import ClassGraft.Proofs.PatchedBytes
import ClassGraft.Proofs.Prefixes
import ClassGraft.Proofs.References
import ClassGraft.Proofs.Refusals
import ClassGraft.Proofs.RenamedPatch
import ClassGraft.Proofs.Rereading
import ClassGraft.Proofs.RoundTrip
import ClassGraft.Proofs.SecondPatch
import ClassGraft.Proofs.SpliceEffect
import ClassGraft.Proofs.Survey
import ClassGraft.Proofs.Underflow
import ClassGraft.Proofs.PoolRuns
import ClassGraft.Proofs.EditedBodies
import ClassGraft.Proofs.ExactSplice
import ClassGraft.Proofs.Scopes
import ClassGraft.Proofs.Measuring
import ClassGraft.Proofs.FreshSlot
import ClassGraft.Proofs.Undoing
import ClassGraft.Proofs.ShortestForms
import ClassGraft.Proofs.LiftedForms
import ClassGraft.Proofs.Emission
import ClassGraft.Proofs.MappingText
import ClassGraft.Proofs.MarkedMethods
import ClassGraft.Proofs.FieldReads
import ClassGraft.Proofs.FileContents
import ClassGraft.Proofs.FrameTables
import ClassGraft.Proofs.DecodedLayout
