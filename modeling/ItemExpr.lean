import ItemExpr.Calendar.Iso
import ItemExpr.Session
import ItemExpr.Proofs.Table.RoundTrip
import ItemExpr.Proofs.Condition.Unambiguous
import ItemExpr.Proofs.Update.Dispatch
import ItemExpr.Proofs.Request.Closed
import ItemExpr.Proofs.Table.Pieces
import ItemExpr.Proofs.Update.Flatten
import ItemExpr.Proofs.Map
import ItemExpr.Proofs.Request.Unseen
import ItemExpr.Proofs.Condition.Legible
import ItemExpr.Proofs.Request.Meaning
import ItemExpr.Proofs.Request.Alone
import ItemExpr.Proofs.Number.Spelling
import ItemExpr.Proofs.Number.Range
import ItemExpr.Proofs.Wire.RoundTrip
import ItemExpr.Proofs.Wire.Refusal
import ItemExpr.Proofs.Table.Numbering
import ItemExpr.Proofs.Workspace.Collecting
import ItemExpr.Proofs.Workspace.Sharing
import ItemExpr.Proofs.Condition.Leaves
import ItemExpr.Proofs.Condition.Assembled
import ItemExpr.Proofs.Update.Unwritten
import ItemExpr.Proofs.Update.Unambiguous
import ItemExpr.Proofs.Workspace.Surplus
import ItemExpr.Proofs.Wire.Members
import ItemExpr.Proofs.Request.LowLevel
import ItemExpr.Proofs.Wire.Sets
import ItemExpr.Proofs.Value.Dumping
import ItemExpr.Proofs.Value.Models
import ItemExpr.Proofs.Update.Indexes
import ItemExpr.Proofs.Table.Freshness
import ItemExpr.Proofs.Table.BareNames
