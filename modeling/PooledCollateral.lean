/-
PooledCollateral — a collateral pool and everything around it: shares and their
locks, shared fees, exits that keep the collateral ratio, snapshots and stores,
and the operation of a pool with its tokens and manager.
-/
import PooledCollateral.Address
import PooledCollateral.Amount
import PooledCollateral.Bisect
import PooledCollateral.Burn
import PooledCollateral.Bytes
import PooledCollateral.CollateralRatio
import PooledCollateral.Custody.Basic
import PooledCollateral.Custody.Call
import PooledCollateral.Custody.Operations
import PooledCollateral.Custody.Transaction
import PooledCollateral.Decimal.Significand
import PooledCollateral.Environment
import PooledCollateral.Event
import PooledCollateral.Failure
import PooledCollateral.FeeBook
import PooledCollateral.Guard
import PooledCollateral.LockQueue
import PooledCollateral.LogSettings
import PooledCollateral.Manager
import PooledCollateral.Metrics.Basic
import PooledCollateral.Metrics.Exposition
import PooledCollateral.Pool.Administration
import PooledCollateral.Pool.Audit
import PooledCollateral.Pool.Basic
import PooledCollateral.Pool.Call
import PooledCollateral.Pool.Checkpoint
import PooledCollateral.Pool.Entry
import PooledCollateral.Pool.Exit
import PooledCollateral.Pool.Fees
import PooledCollateral.Pool.Records
import PooledCollateral.Price
import PooledCollateral.Proofs.Action
import PooledCollateral.Proofs.Agreement
import PooledCollateral.Proofs.Bisect
import PooledCollateral.Proofs.Burn
import PooledCollateral.Proofs.CollateralRatio
import PooledCollateral.Proofs.Commit
import PooledCollateral.Proofs.Custody.AuditTrail
import PooledCollateral.Proofs.Custody.Dealings
import PooledCollateral.Proofs.Custody.Failure
import PooledCollateral.Proofs.Custody.Listing
import PooledCollateral.Proofs.Custody.Outcome
import PooledCollateral.Proofs.Custody.Restart
import PooledCollateral.Proofs.Custody.Surplus
import PooledCollateral.Proofs.FeeBook
import PooledCollateral.Proofs.HollowAccounts
import PooledCollateral.Proofs.LockChanges
import PooledCollateral.Proofs.LockQueue
import PooledCollateral.Proofs.LockedShares
import PooledCollateral.Proofs.Pool.Accrual
import PooledCollateral.Proofs.Pool.Audit
import PooledCollateral.Proofs.Pool.Books
import PooledCollateral.Proofs.Pool.Bootstrap
import PooledCollateral.Proofs.Pool.CarryOut
import PooledCollateral.Proofs.Pool.Clearing
import PooledCollateral.Proofs.Pool.CollateralPerShare
import PooledCollateral.Proofs.Pool.Effects
import PooledCollateral.Proofs.Pool.Entitlement
import PooledCollateral.Proofs.Pool.FeeBacking
import PooledCollateral.Proofs.Pool.FeeConservation
import PooledCollateral.Proofs.Pool.Hollowing
import PooledCollateral.Proofs.Pool.Listing
import PooledCollateral.Proofs.Pool.Loading
import PooledCollateral.Proofs.Pool.Locks
import PooledCollateral.Proofs.Pool.Neutrality
import PooledCollateral.Proofs.Pool.Overhang
import PooledCollateral.Proofs.Pool.Postings
import PooledCollateral.Proofs.Pool.Ratio
import PooledCollateral.Proofs.Pool.Records
import PooledCollateral.Proofs.Pool.Restore
import PooledCollateral.Proofs.Pool.RoundTrip
import PooledCollateral.Proofs.Pool.Run
import PooledCollateral.Proofs.Pool.SelfClose
import PooledCollateral.Proofs.Pool.Splitting
import PooledCollateral.Proofs.Pool.Totals
import PooledCollateral.Proofs.Pool.Undo
import PooledCollateral.Proofs.Pool.VirtualReserve
import PooledCollateral.Proofs.RunningLocks
import PooledCollateral.Proofs.ShareBook
import PooledCollateral.Proofs.Snapshot
import PooledCollateral.Proofs.Snapshot.Codec
import PooledCollateral.Proofs.Store
import PooledCollateral.Proofs.Sums
import PooledCollateral.Proofs.TokenBook
import PooledCollateral.Proofs.TokenTransfers
import PooledCollateral.Rejection
import PooledCollateral.Restriction
import PooledCollateral.Settings.Basic
import PooledCollateral.Settings.FromEnvironment
import PooledCollateral.ShareBook
import PooledCollateral.Snapshot.Basic
import PooledCollateral.Snapshot.Codec
import PooledCollateral.Store
import PooledCollateral.Table.Amounts
import PooledCollateral.Table.Basic
import PooledCollateral.Text.Blank
import PooledCollateral.Text.Hex
import PooledCollateral.Text.Numeral
import PooledCollateral.Text.Quoted
import PooledCollateral.Text.Unprintable
import PooledCollateral.TokenBook
import PooledCollateral.Proofs.Custody.Approvals
import PooledCollateral.Proofs.Custody.PoolCalls
import PooledCollateral.Proofs.Custody.Isolation
import PooledCollateral.Proofs.Faultless
import PooledCollateral.Proofs.FaultlessBooks
import PooledCollateral.Proofs.Pool.NoFault
import PooledCollateral.Proofs.Pool.GrossReserve
import PooledCollateral.Proofs.Pool.Claims
import PooledCollateral.Proofs.LockRelease
import PooledCollateral.Proofs.Pool.Residuals
import PooledCollateral.Proofs.Pool.RatioReports
import PooledCollateral.Proofs.Text.Numeral
import PooledCollateral.Proofs.Settings.FromEnvironment
