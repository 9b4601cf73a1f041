import PhpHandlebars.CallTree
import PhpHandlebars.Ledger
import PhpHandlebars.FramedRecord
import PhpHandlebars.Zval
import PhpHandlebars.BinaryTemplate
import PhpHandlebars.ValueConversion
import PhpHandlebars.CompilerOptions
import PhpHandlebars.Render
import PhpHandlebars.RenderRun
import PhpHandlebars.EventRun
import PhpHandlebars.ArrayFill
import PhpHandlebars.SymbolCode
import PhpHandlebars.Traced
import PhpHandlebars.CacheLease
import PhpHandlebars.StringReferences
import PhpHandlebars.ArgumentSafety
import PhpHandlebars.FileFreshness
import PhpHandlebars.ErrorHandler
import PhpHandlebars.ErrorHandlerRun
import PhpHandlebars.HandlerSlots
import PhpHandlebars.DanglingHandler
import PhpHandlebars.ErrorDelivery
import PhpHandlebars.UserException
import PhpHandlebars.CacheTransparency
import PhpHandlebars.PrecompiledRender
import PhpHandlebars.DecimalText
import PhpHandlebars.PhpArray
import PhpHandlebars.ValueLookup
import PhpHandlebars.DataRoundTrip
import PhpHandlebars.ValueSlot
import PhpHandlebars.SlotSharing
import PhpHandlebars.ValueIterator
import PhpHandlebars.ForeachIteration
import PhpHandlebars.ThrowingIterator
import PhpHandlebars.CellHandlers
import PhpHandlebars.CellRefinement
import PhpHandlebars.ConversionContext
import PhpHandlebars.ViewCoherence
import PhpHandlebars.OptionsObject
import PhpHandlebars.OptionsTeardown
import PhpHandlebars.OptionsProperties
import PhpHandlebars.OptionsOwnership
import PhpHandlebars.NameLookup
import PhpHandlebars.DataFrame
import PhpHandlebars.ExpressionEscaping
import PhpHandlebars.KnownHelpers
import PhpHandlebars.RegistrySync
import PhpHandlebars.HelperCall
import PhpHandlebars.Guarded
import PhpHandlebars.CompilePipelines
import PhpHandlebars.OptionsArrayAccess
import PhpHandlebars.ProgramObject
import PhpHandlebars.Branching
import PhpHandlebars.ParserAst
import PhpHandlebars.TypedArrays
import PhpHandlebars.SyntaxTree
import PhpHandlebars.CacheHistory
import PhpHandlebars.CallOutcomes
import PhpHandlebars.InlinedFiles
import PhpHandlebars.OptionsDispatch
import PhpHandlebars.CellReferences
import PhpHandlebars.QuoteEscaping
import PhpHandlebars.ContextPath
import PhpHandlebars.NestedLookup
import PhpHandlebars.HandlerReferences
import PhpHandlebars.LookupAgreement
import PhpHandlebars.LoadDiagnostics
import PhpHandlebars.SameSyntax
import PhpHandlebars.KeptReferences
import PhpHandlebars.HandedBack
import PhpHandlebars.HandlerRefinement
