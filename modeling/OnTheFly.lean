import OnTheFly.Acceptor.CounterExamples
import OnTheFly.Acceptor.FinalStates
import OnTheFly.Acceptor.MatchingStates
import OnTheFly.Acceptor.Recorder
import OnTheFly.Exploration.Explorer
import OnTheFly.StateSpace.Start
import OnTheFly.Strategy.Any
import OnTheFly.Proofs.StateSpace.Entries
import OnTheFly.Proofs.StateSpace.Evolution
import OnTheFly.Proofs.StateSpace.Closing
import OnTheFly.Proofs.StateSpace.Application
import OnTheFly.Proofs.StateSpace.Chronicle
import OnTheFly.Proofs.Exploration.Closing
import OnTheFly.Proofs.Exploration.Driven
import OnTheFly.Proofs.Product.Arena
import OnTheFly.Proofs.Product.Cycles
import OnTheFly.Proofs.ModelCheck.Search
import OnTheFly.Proofs.ModelCheck.Ltl
import OnTheFly.Proofs.ModelCheck.Examined
import OnTheFly.Proofs.ModelCheck.Lasso
import OnTheFly.Proofs.ModelCheck.Bounded.Parts
import OnTheFly.Proofs.ModelCheck.Bounded.Pockets
import OnTheFly.Proofs.ModelCheck.Bounded.Run
import OnTheFly.Proofs.ModelCheck.Soundness
import OnTheFly.Proofs.Automaton.Draft
import OnTheFly.Proofs.ModelCheck.Detection
import OnTheFly.Proofs.ModelCheck.Coverage
import OnTheFly.Proofs.Exploration.Steps
import OnTheFly.Proofs.Exploration.Expansion
import OnTheFly.Proofs.Strategy.Closing
import OnTheFly.Proofs.Strategy.Exhaustion
import OnTheFly.Proofs.Product.Graphs
import OnTheFly.Proofs.ModelCheck.Bounded.Accounting
import OnTheFly.Proofs.ModelCheck.Bounded.Termination
import OnTheFly.Proofs.Exploration.Agreement
import OnTheFly.Proofs.ModelCheck.Bounded.Turns
import OnTheFly.Proofs.ModelCheck.Bounded.Mirroring
import OnTheFly.Proofs.ModelCheck.Bounded.Excursions
import OnTheFly.Proofs.ModelCheck.Pruning
import OnTheFly.Proofs.ModelCheck.Bounded.Moves
import OnTheFly.Proofs.ModelCheck.Colours
import OnTheFly.Proofs.Strategy.Any
import OnTheFly.Proofs.ModelCheck.Bounded.Crossings
import OnTheFly.Proofs.ModelCheck.Bounded.DeadEnds
import OnTheFly.Proofs.ModelCheck.Bounded.Deepening
import OnTheFly.Proofs.StateSpace.Conservation
import OnTheFly.Proofs.StateSpace.Listing
import OnTheFly.Proofs.StateSpace.Fingerprints
import OnTheFly.Proofs.StateSpace.Interruption
import OnTheFly.Proofs.Exploration.Interruption
import OnTheFly.Proofs.Strategy.Resumption
import OnTheFly.Proofs.Strategy.Interruption
import OnTheFly.Proofs.ModelCheck.Exactness
import OnTheFly.Proofs.StateSpace.Representatives
import OnTheFly.Proofs.StateSpace.Narration
import OnTheFly.Proofs.Exploration.Observation
import OnTheFly.Proofs.Strategy.EventLog
import OnTheFly.Proofs.ModelCheck.Bounded.Truncation
import OnTheFly.Proofs.StateSpace.Discovery
import OnTheFly.Proofs.Text.Marks
import OnTheFly.Proofs.Text.Cuts
import OnTheFly.Proofs.Automaton.Written
import OnTheFly.Proofs.Automaton.Grammar
import OnTheFly.Proofs.Automaton.ByName
import OnTheFly.Proofs.Automaton.Builder
import OnTheFly.Proofs.Automaton.RoundTrip
import OnTheFly.Proofs.Automaton.Reading
import OnTheFly.Proofs.ModelCheck.Locations
import OnTheFly.Proofs.StateSpace.Layers
import OnTheFly.Proofs.Strategy.BreadthFirst
import OnTheFly.Proofs.Exploration.Collecting
import OnTheFly.Proofs.Strategy.Answers
import OnTheFly.Proofs.Strategy.Construction
import OnTheFly.Proofs.Exploration.Stages
import OnTheFly.Proofs.Strategy.TransientFirst
import OnTheFly.Proofs.Product.Origins
import OnTheFly.Proofs.Strategy.OnePath
import OnTheFly.Proofs.Strategy.SingleState
