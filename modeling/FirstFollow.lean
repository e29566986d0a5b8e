import FirstFollow.Candidate
import FirstFollow.Grammar.Occurrence
import FirstFollow.Grammar.Tokens
import FirstFollow.Table
import FirstFollow.Proofs.Memo
import FirstFollow.Proofs.Run
import FirstFollow.Proofs.Bounds
import FirstFollow.Proofs.Total
import FirstFollow.Proofs.Closed
import FirstFollow.Proofs.Explored
import FirstFollow.Proofs.First
import FirstFollow.Proofs.Follow
import FirstFollow.Proofs.Answers
import FirstFollow.Proofs.Tables
import FirstFollow.Proofs.Order
import FirstFollow.Proofs.Changes
import FirstFollow.Proofs.Keys
import FirstFollow.Proofs.Derivations
import FirstFollow.Proofs.Modes
import FirstFollow.Proofs.Beneath
import FirstFollow.Proofs.Failures
import FirstFollow.Proofs.Missing
import FirstFollow.Proofs.Settling
import FirstFollow.Proofs.Components
import FirstFollow.Proofs.FollowGroups
import FirstFollow.Proofs.RoundTrip
import FirstFollow.Proofs.TokenTables
import FirstFollow.Proofs.Budgets
import FirstFollow.Proofs.Termination
import FirstFollow.Proofs.Log
import FirstFollow.Proofs.Respelling
import FirstFollow.Proofs.Occurrences
import FirstFollow.Proofs.Acceptance
import FirstFollow.Proofs.Construction
import FirstFollow.Proofs.Comparison
import FirstFollow.Proofs.Sequences
import FirstFollow.Proofs.Shape
import FirstFollow.Proofs.EpsilonFree
