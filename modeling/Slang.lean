import Slang.Main
import Slang.Proofs.CommandLine.Emitted
import Slang.Proofs.Grammar.Accepted
import Slang.Proofs.Grammar.Complete
import Slang.Proofs.Grammar.OpenBlocks
import Slang.Proofs.Parser.Prefix
import Slang.Proofs.Parser.Progress
import Slang.Proofs.Run.Agreement
import Slang.Proofs.Run.CleanStop
import Slang.Proofs.Run.Isolation
import Slang.Proofs.Run.Nesting
import Slang.Proofs.Run.Strict
import Slang.Proofs.Run.Wrapping
import Slang.Proofs.Scope.Chain
import Slang.Proofs.Session.Discipline
import Slang.Proofs.Session.Input
import Slang.Proofs.Session.Join
import Slang.Proofs.Session.Names
import Slang.Proofs.Session.Observe
import Slang.Proofs.Session.Report
import Slang.Proofs.Session.Scoped
import Slang.Proofs.Session.Unparsed
import Slang.Proofs.Token.Line
import Slang.Proofs.Tree.Trimming
import Slang.Proofs.Value.Domain
import Slang.Proofs.Value.Entry
import Slang.Proofs.Value.Whole
