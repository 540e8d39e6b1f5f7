import LuaSource.Proofs.BodiesByHand
import LuaSource.Proofs.CommentReadBack
import LuaSource.Proofs.FloatLiteral
import LuaSource.Proofs.FreshStart
import LuaSource.Proofs.HeaderReadBack
import LuaSource.Proofs.IndexedLiteral
import LuaSource.Proofs.IntegerLiteral
import LuaSource.Proofs.JournalLines
import LuaSource.Proofs.LayoutChange
import LuaSource.Proofs.LeastLevel
import LuaSource.Proofs.LevelLedger
import LuaSource.Proofs.LevelSearch
import LuaSource.Proofs.MergedSources
import LuaSource.Proofs.NameLexemes
import LuaSource.Proofs.OpenBlocks
import LuaSource.Proofs.OpenerStack
import LuaSource.Proofs.ProgramText
import LuaSource.Proofs.QuotedReadBack
import LuaSource.Proofs.RefusalRules
import LuaSource.Proofs.RefusedCommands
import LuaSource.Proofs.Relocation
import LuaSource.Proofs.SilentRuns
import LuaSource.Proofs.SourceGrowth
import LuaSource.Proofs.SourceLines
import LuaSource.Proofs.StrayComments
import LuaSource.Proofs.TableReadBack
import LuaSource.Report
