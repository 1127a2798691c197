import Reckoner.Batch
import Reckoner.Cache.Recency
import Reckoner.Clock
import Reckoner.Context
import Reckoner.Expression.Display
import Reckoner.Main
import Reckoner.Memo
import Reckoner.Memory
import Reckoner.Proofs.Batch.Chunks
import Reckoner.Proofs.Batch.Delivery
import Reckoner.Proofs.Batch.Timer
import Reckoner.Proofs.Cache.Invariant
import Reckoner.Proofs.Command
import Reckoner.Proofs.Context
import Reckoner.Proofs.Counting.Combination
import Reckoner.Proofs.Counting.Exact
import Reckoner.Proofs.Counting.Overflow
import Reckoner.Proofs.Decimal.Brevity
import Reckoner.Proofs.Decimal.Error
import Reckoner.Proofs.Decimal.Normal
import Reckoner.Proofs.Expression.Agreement
import Reckoner.Proofs.Expression.Ending
import Reckoner.Proofs.Expression.Inert
import Reckoner.Proofs.Expression.Lifecycle
import Reckoner.Proofs.Expression.Outcome
import Reckoner.Proofs.Memo.Economy
import Reckoner.Proofs.Memo.Lifetime
import Reckoner.Proofs.Pool.Loans
import Reckoner.Proofs.Record.Copy
import Reckoner.Proofs.Record.Nesting
import Reckoner.Proofs.Record.Numbers
import Reckoner.Proofs.Record.Verdict
import Reckoner.Proofs.Samples.Window
import Reckoner.Proofs.Term.Display
import Reckoner.Proofs.Term.Grammar
import Reckoner.Proofs.Term.Leading
import Reckoner.Proofs.Term.Place
import Reckoner.Proofs.Token.Concord
import Reckoner.Proofs.Token.Partition
import Reckoner.Proofs.Token.Separate
import Reckoner.Proofs.Validity
import Reckoner.Record.Expression
import Reckoner.Work
