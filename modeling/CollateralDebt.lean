import CollateralDebt.Event.Encoding
import CollateralDebt.Event.Reader
import CollateralDebt.Machine
import CollateralDebt.Operation.Text
import CollateralDebt.Params.File
import CollateralDebt.Report.Event
import CollateralDebt.Report.System
import CollateralDebt.Proofs.Action.Outcome
import CollateralDebt.Proofs.SortedMap.Total
import CollateralDebt.Proofs.Surplus
import CollateralDebt.Proofs.Solvency
import CollateralDebt.Proofs.Ledger.Asset
import CollateralDebt.Proofs.Ledger.Operations
import CollateralDebt.Proofs.Ledger.Books
import CollateralDebt.Proofs.Ledger.Soundness
import CollateralDebt.Proofs.Ledger.Row
import CollateralDebt.Proofs.Ledger.Stakes
import CollateralDebt.Proofs.Liquidation.Plan
import CollateralDebt.Proofs.Liquidation.Decision
import CollateralDebt.Proofs.Liquidation.Commit
import CollateralDebt.Proofs.Liquidation.Batch
import CollateralDebt.Proofs.Liquidation.Forecast
import CollateralDebt.Proofs.Liquidation.Balance
import CollateralDebt.Proofs.Liquidation.Stakes
import CollateralDebt.Proofs.StabilityPool.Solvency
import CollateralDebt.Proofs.StabilityPool.Accumulators
import CollateralDebt.Proofs.StabilityPool.Run
import CollateralDebt.Proofs.StabilityPool.Product
import CollateralDebt.Proofs.StabilityPool.Gains
import CollateralDebt.Proofs.StabilityPool.Readings
import CollateralDebt.Proofs.StabilityPool.Remainder
import CollateralDebt.Proofs.StabilityPool.Settlement
import CollateralDebt.Proofs.StabilityPool.SoleDeposit
import CollateralDebt.Proofs.StabilityPool.Precision
import CollateralDebt.Proofs.StabilityPool.Monotone
import CollateralDebt.Proofs.Machine.Effect
import CollateralDebt.Proofs.Machine.AllOrNothing
import CollateralDebt.Proofs.Machine.Run
import CollateralDebt.Proofs.Machine.Accounts
import CollateralDebt.Proofs.Machine.Conservation
import CollateralDebt.Proofs.Machine.Coverage
import CollateralDebt.Proofs.Machine.Order
import CollateralDebt.Proofs.Machine.Collateral
import CollateralDebt.Proofs.Machine.Totals
import CollateralDebt.Proofs.Machine.Guard
import CollateralDebt.Proofs.Machine.Forecast
import CollateralDebt.Proofs.Machine.Stakes
import CollateralDebt.Proofs.Machine.Shares
import CollateralDebt.Proofs.State.Encoding
import CollateralDebt.Proofs.Action.Parallel
import CollateralDebt.Proofs.Machine.Counts
import CollateralDebt.Proofs.Machine.Restart
import CollateralDebt.Proofs.SortedMap.Update
import CollateralDebt.Proofs.Ledger.Settlement
import CollateralDebt.Proofs.Ledger.Redistribution
import CollateralDebt.Proofs.Liquidation.Settlement
import CollateralDebt.Proofs.Machine.Settlement
import CollateralDebt.Proofs.Machine.Log
import CollateralDebt.Proofs.Event.Replay
import CollateralDebt.Proofs.Machine.Replay
import CollateralDebt.Proofs.Ledger.Isolation
import CollateralDebt.Proofs.Machine.Mode
import CollateralDebt.Proofs.Liquidation.Isolation
import CollateralDebt.Proofs.Machine.Isolation
import CollateralDebt.Proofs.Json.Reading
import CollateralDebt.Proofs.Json.RoundTrip
import CollateralDebt.Proofs.Amount.Text
import CollateralDebt.Proofs.Amount.Grammar
import CollateralDebt.Proofs.Json.Record
import CollateralDebt.Proofs.Operation.Text
import CollateralDebt.Proofs.Params.File
import CollateralDebt.Proofs.Text
import CollateralDebt.Proofs.Word
import CollateralDebt.Proofs.StabilityPool.DebtLoss
