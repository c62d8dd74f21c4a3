import ParticleAutomaton.Board.Image
import ParticleAutomaton.Board.Network
import ParticleAutomaton.Main
import ParticleAutomaton.Proofs.MirroredBonds
import ParticleAutomaton.Proofs.UnseenFlushes
import ParticleAutomaton.Proofs.EnergyBalance
import ParticleAutomaton.Proofs.WriteFence
import ParticleAutomaton.Proofs.RemoteBarrier
import ParticleAutomaton.Proofs.StepTransactions
import ParticleAutomaton.Proofs.Occupancy
import ParticleAutomaton.Proofs.ActivitySync
import ParticleAutomaton.Proofs.BoardFiles
import ParticleAutomaton.Proofs.SavedBoards
import ParticleAutomaton.Proofs.Exchanges
import ParticleAutomaton.Proofs.WholeNames
import ParticleAutomaton.Proofs.FaultlessRuns
import ParticleAutomaton.Proofs.GaplessSamplers
import ParticleAutomaton.Proofs.SummedBoards
import ParticleAutomaton.Proofs.LiveDraws
import ParticleAutomaton.Proofs.ShownChanges
import ParticleAutomaton.Proofs.BoardTexts
import ParticleAutomaton.Proofs.PlannedBonds
import ParticleAutomaton.Proofs.RequiredOrder
import ParticleAutomaton.Proofs.CompiledOutcomes
import ParticleAutomaton.Proofs.QuadrantSums
import ParticleAutomaton.Proofs.ProportionalDraws
import ParticleAutomaton.Proofs.WeightedDraws
import ParticleAutomaton.Proofs.RateBounds
import ParticleAutomaton.Proofs.RefusedRestores
import ParticleAutomaton.Proofs.TemplateValues
import ParticleAutomaton.Proofs.QuickTests
import ParticleAutomaton.Proofs.DisplacedBonds
import ParticleAutomaton.Proofs.QuotedNames
import ParticleAutomaton.Proofs.ReusedMatches
import ParticleAutomaton.Proofs.DirectedSources
import ParticleAutomaton.Proofs.RegistryIdentities
import ParticleAutomaton.Proofs.MessageTexts
import ParticleAutomaton.Proofs.NearestColors
import ParticleAutomaton.Proofs.BondWeights
import ParticleAutomaton.Proofs.ItemTables
import ParticleAutomaton.Proofs.RateLevels
import ParticleAutomaton.Proofs.TemplateScans
