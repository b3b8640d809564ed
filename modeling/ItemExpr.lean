import ItemExpr.AttributeValue.Conversion
import ItemExpr.AttributeValue.Summary
import ItemExpr.Json.Printer
import ItemExpr.Proofs.AttributeValue.Document
import ItemExpr.Proofs.AttributeValue.Fingerprint
import ItemExpr.Proofs.AttributeValue.Sets
import ItemExpr.Proofs.AttributeValue.WireForm
import ItemExpr.Proofs.Condition.Canonical
import ItemExpr.Proofs.Condition.Roots
import ItemExpr.Proofs.Condition.WellFormed
import ItemExpr.Proofs.Path.Notation
import ItemExpr.Proofs.Path.Recovered
import ItemExpr.Proofs.Placeholders.Refusals
import ItemExpr.Proofs.Placeholders.Search
import ItemExpr.Proofs.Projection.Distinct
import ItemExpr.Proofs.Request.Accepted
import ItemExpr.Proofs.Request.Additions
import ItemExpr.Proofs.Request.Assembly
import ItemExpr.Proofs.Request.Filter
import ItemExpr.Proofs.Request.KeyCondition
import ItemExpr.Proofs.Request.Limits
import ItemExpr.Proofs.Request.Pattern
import ItemExpr.Proofs.Request.Pieces
import ItemExpr.Proofs.Request.WireForm
import ItemExpr.Proofs.Settings.Texts
import ItemExpr.Proofs.Update.Literals
