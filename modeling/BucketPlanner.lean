import BucketPlanner.Command.FileTree
import BucketPlanner.Main
import BucketPlanner.Proofs.Bucket.Contents
import BucketPlanner.Proofs.Bucket.Entries
import BucketPlanner.Proofs.Bucket.Entering
import BucketPlanner.Proofs.Bucket.RunEntries
import BucketPlanner.Proofs.Plan.Conjunction
import BucketPlanner.Proofs.Plan.Empty
import BucketPlanner.Proofs.Plan.Fatal
import BucketPlanner.Proofs.Plan.FloatLiterals
import BucketPlanner.Proofs.Plan.Outcome
import BucketPlanner.Proofs.Plan.Operations
import BucketPlanner.Proofs.Plan.UnitBuckets
import BucketPlanner.Proofs.Store.Answered
import BucketPlanner.Proofs.Store.Counts
import BucketPlanner.Proofs.Store.Covered
import BucketPlanner.Proofs.Store.Domain
import BucketPlanner.Proofs.Schema.Calls
import BucketPlanner.Proofs.Schema.Layout
import BucketPlanner.Proofs.Bucket.Addition
import BucketPlanner.Proofs.Store.Resolution
import BucketPlanner.Proofs.Schema.Spelling
import BucketPlanner.Proofs.Store.Loading
import BucketPlanner.Proofs.Value.Transitivity
import BucketPlanner.Proofs.Plan.Counters
import BucketPlanner.Proofs.Report.Lines
import BucketPlanner.Proofs.Plan.Rendering
import BucketPlanner.Proofs.Plan.Accumulation
import BucketPlanner.Proofs.Plan.Explanation
import BucketPlanner.Proofs.Bucket.ExactQuotient
import BucketPlanner.Proofs.Schema.Written
