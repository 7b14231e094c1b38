import CallBundle.Abi.Capacity
import CallBundle.Forwarding
import CallBundle.Json.Record
import CallBundle.Ownership
import CallBundle.Proofs.Abi.Element
import CallBundle.Proofs.Abi.Tuple
import CallBundle.Proofs.Forwarding
import CallBundle.Proofs.Abi.Written
import CallBundle.Proofs.Abi.Layout
import CallBundle.Proofs.Abi.Word
import CallBundle.Proofs.Abi.Encoding
import CallBundle.Proofs.Abi.Reading
import CallBundle.Proofs.Submission
import CallBundle.Proofs.Compilation
import CallBundle.Proofs.Collection
import CallBundle.Proofs.Refusal
import CallBundle.Proofs.Abi.Grammar
import CallBundle.Proofs.Abi.Fault
import CallBundle.Proofs.Abi.Capacity
import CallBundle.Proofs.Typing
import CallBundle.Proofs.Format
import CallBundle.Proofs.Agreement
import CallBundle.Proofs.Amount
import CallBundle.Proofs.Literal
import CallBundle.Proofs.Hex
import CallBundle.Proofs.Spelling
import CallBundle.Proofs.Abi.Fit
import CallBundle.Proofs.Abi.Position
import CallBundle.Proofs.Origin
import CallBundle.Proofs.Deferral
import CallBundle.Proofs.Rereading
import CallBundle.Proofs.Signature
import CallBundle.Proofs.Abi.Canonical
import CallBundle.Proofs.Abi.Width
import CallBundle.Proofs.Address
import CallBundle.Proofs.Entity
import CallBundle.Proofs.Truncation
import CallBundle.Proofs.Denotation
import CallBundle.Proofs.Abi.Integer
import CallBundle.Proofs.Logging
import CallBundle.Proofs.Ownership
