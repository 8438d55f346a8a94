import Sunder.Type
import Sunder.Value
import Sunder.Cst
import Sunder.Expr
import Sunder.Eval
import Sunder.EvalArith
import Sunder.EvalCompare
import Sunder.EvalAccess
import Sunder.TwosComplement
import Sunder.Serialize
import Sunder.EvalBits
import Sunder.ImplicitCast
import Sunder.Resolver.State
import Sunder.Resolver.Storage
import Sunder.Registry
import Sunder.Resolver.Typespec
import Sunder.Resolver.Decl
import Sunder.Resolver.Template
import Sunder.Resolver.ExprOps
import Sunder.Resolver.Expr
import Sunder.Resolver.Stmt
import Sunder.Resolver.Module
import Sunder.Resolver.Defer
import Sunder.Resolver.Merge
import Sunder.Resolver.Import
import Sunder.Resolver.Literal
import Sunder.Resolver.Names
import Sunder.Resolver.Aggregates
import Sunder.Parse.Token
import Sunder.Parse.Tree
import Sunder.Parse.Expr
import Sunder.Parse.Decl
import Sunder.Parse.Progress
import Sunder.Parse.Grouping
import Sunder.Parse.Pratt
import Sunder.Parse.WellFormed
import Sunder.Parse.Sound
import Sunder.Parse.Print
import Sunder.Parse.ReadBack
import Sunder.Parse.ReadExpr
import Sunder.Parse.RoundTrip
import Sunder.EvalTyping
