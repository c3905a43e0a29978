import Lox.Settings
import Lox.LogFilter
import Lox.Syntax.Equality
import Lox.Syntax.Printer
import Lox.Proofs.Run.Host
import Lox.Proofs.Errors.Attribution
import Lox.Proofs.Scoping.Locality
import Lox.Proofs.Scoping.Soundness
import Lox.Proofs.Control.Return
import Lox.Proofs.Control.Session
import Lox.Proofs.Control.Termination
import Lox.Proofs.Scoping.Names
import Lox.Proofs.Renaming.Parameter
import Lox.Proofs.Scoping.Grounded
import Lox.Proofs.Rewriting.Braces
import Lox.Proofs.Rewriting.Parentheses
import Lox.Proofs.Output.Append
import Lox.Proofs.Functions.Blocks
import Lox.Proofs.Operands.Logic
import Lox.Proofs.Printing.Readable
import Lox.Proofs.Numbers.Evaluation
import Lox.Proofs.Functions.Identity
import Lox.Proofs.Settings.Reading
import Lox.Proofs.Syntax.Canonical
import Lox.Proofs.Output.History
import Lox.Proofs.Scoping.Descriptions
import Lox.Proofs.Session.Commands
