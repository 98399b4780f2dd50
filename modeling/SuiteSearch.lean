import SuiteSearch.Describe
import SuiteSearch.Exchange.Candidate
import SuiteSearch.Exchange.Goal
import SuiteSearch.Exchange.Outcome
import SuiteSearch.Exchange.Strategy
import SuiteSearch.Main
import SuiteSearch.Program.Downcast
import SuiteSearch.Program.Slice
import SuiteSearch.Proofs.Mutation.Typing
import SuiteSearch.Proofs.Search.Coverage
import SuiteSearch.Proofs.Archive.History
import SuiteSearch.Proofs.Archive.Ranking
import SuiteSearch.Proofs.Archive.TopOffers
import SuiteSearch.Proofs.Archive.BestSoFar
import SuiteSearch.Proofs.Search.Fallback
import SuiteSearch.Proofs.Program.Retyping
import SuiteSearch.Proofs.Program.Downcast
import SuiteSearch.Proofs.Fitness.Bookkeeping
import SuiteSearch.Proofs.Mutation.Length
import SuiteSearch.Proofs.Program.Initialization
import SuiteSearch.Proofs.Mutation.Initialization
import SuiteSearch.Proofs.Json.Reading
import SuiteSearch.Proofs.Ty.Name
import SuiteSearch.Proofs.Cluster.Document
import SuiteSearch.Proofs.Program.Reslicing
import SuiteSearch.Proofs.Search.Accounting
import SuiteSearch.Proofs.Mutation.Nulls
import SuiteSearch.Proofs.Program.Insertion
import SuiteSearch.Proofs.Program.Dependence
import SuiteSearch.Proofs.Program.SliceContents
import SuiteSearch.Proofs.Program.Candidates
import SuiteSearch.Proofs.Cluster.Preorder
import SuiteSearch.Proofs.Program.Widening
import SuiteSearch.Proofs.Generation.Consultation
import SuiteSearch.Proofs.Ty.Reading
import SuiteSearch.Proofs.Fitness.Monotone
import SuiteSearch.Proofs.Program.Replacement
import SuiteSearch.Proofs.Mutation.Reporting
import SuiteSearch.Proofs.Search.Annealing
import SuiteSearch.Proofs.Oracle.Backoff
import SuiteSearch.Proofs.Generation.Literals
import SuiteSearch.Proofs.Goal.Limiting
import SuiteSearch.Proofs.Program.Rebasing
import SuiteSearch.Proofs.Search.Timing
