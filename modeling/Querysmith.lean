import Querysmith.Text
import Querysmith.Text.Capital
import Querysmith.Text.Quoted
import Querysmith.Binary64.Layout
import Querysmith.Json.Reader
import Querysmith.Json.Pretty
import Querysmith.Error
import Querysmith.Normalizer
import Querysmith.Cast
import Querysmith.Compiler.Read
import Querysmith.Compiler.Upsert
import Querysmith.Url
import Querysmith.Engine
import Querysmith.Engine.InferredCast
import Querysmith.Store.Database
import Querysmith.Store.Declaration
import Querysmith.Main
import Querysmith.Proofs.Compiler.Pieces
import Querysmith.Proofs.Compiler.Outcome
import Querysmith.Proofs.Compiler.Legibility
import Querysmith.Proofs.Compiler.Closed
import Querysmith.Proofs.Compiler.Removal
import Querysmith.Proofs.Compiler.Rows
import Querysmith.Proofs.Filter.Narrowing
import Querysmith.Proofs.Compiler.Selection
import Querysmith.Proofs.Engine.Reading
import Querysmith.Proofs.Engine.Writing
import Querysmith.Proofs.Engine.Flight
import Querysmith.Proofs.Engine.Overlap
import Querysmith.Proofs.Engine.Sending
import Querysmith.Proofs.CommandLine.DryRun
import Querysmith.Proofs.Engine.InferredCast
import Querysmith.Proofs.Sql.SetClause
import Querysmith.Proofs.Compiler.Overwrite
import Querysmith.Proofs.Compiler.Strategies
import Querysmith.Proofs.Compiler.Independence
import Querysmith.Proofs.Normalizer.Rules
import Querysmith.Proofs.Normalizer.Stability
import Querysmith.Proofs.Engine.Document
import Querysmith.Proofs.Sql.Upsertion
import Querysmith.Proofs.Compiler.Repetition
import Querysmith.Proofs.Compiler.Refusal
import Querysmith.Proofs.Engine.Stored
import Querysmith.Proofs.Filter.Meaning
import Querysmith.Proofs.Filter.WireForm
import Querysmith.Proofs.Compiler.Paging
import Querysmith.Proofs.Compiler.Batches
import Querysmith.Proofs.Compiler.Conflicts
import Querysmith.Proofs.Compiler.Unguarded
import Querysmith.Proofs.Compiler.Guard
import Querysmith.Proofs.Compiler.Binding
import Querysmith.Proofs.Normalizer.Text
import Querysmith.Proofs.Compiler.Lookup
import Querysmith.Proofs.Pattern
import Querysmith.Proofs.Compiler.Casts
import Querysmith.Proofs.Compiler.Integers
import Querysmith.Proofs.Url
import Querysmith.Proofs.Engine.CastPlace
import Querysmith.Proofs.Engine.CastStability
import Querysmith.Proofs.Engine.CastSlices
import Querysmith.Proofs.Sql.Lexeme
import Querysmith.Proofs.Engine.CastLexemes
import Querysmith.Proofs.Binary64.Rounding
import Querysmith.Proofs.Binary64.Shortest
import Querysmith.Proofs.Json.Numeral
import Querysmith.Proofs.Json.FloatText
import Querysmith.Proofs.Json.Tree
import Querysmith.Proofs.Json.Rereading
import Querysmith.Proofs.Compiler.Embedding
import Querysmith.Proofs.Json.Brackets
import Querysmith.Proofs.Normalizer.Document
import Querysmith.Proofs.Identifier
import Querysmith.Proofs.Sql.Comment
import Querysmith.Proofs.Compiler.Wording
import Querysmith.Proofs.Value
import Querysmith.Proofs.CommandLine.Listing
import Querysmith.Proofs.Engine.Count
