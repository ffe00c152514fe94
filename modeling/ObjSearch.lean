import ObjSearch.Lib.Texts
import ObjSearch.Lib.Printf
import ObjSearch.Sql.Lexer
import ObjSearch.Sql.Match
import ObjSearch.Sql.Read
import ObjSearch.Lib.Tables
import ObjSearch.Lib.Maps
import ObjSearch.Lib.FirstSeen
import ObjSearch.Lib.NameIndex
import ObjSearch.Index.Storage
import ObjSearch.Index.Notify
import ObjSearch.Index.Effect
import ObjSearch.Index.Session
import ObjSearch.Index.Queueing
import ObjSearch.Index.History
import ObjSearch.Index.OneSession
import ObjSearch.Index.Pointing
import ObjSearch.Lib.Runs
import ObjSearch.Thread.DbThread
import ObjSearch.Thread.Shutdown
import ObjSearch.Thread.Connection
import ObjSearch.Csv.Parser
import ObjSearch.Csv.Scanner
import ObjSearch.Csv.Reader
import ObjSearch.Csv.Table
import ObjSearch.Lib.Readback
import ObjSearch.Lib.Relational
import ObjSearch.Sql.Query
import ObjSearch.Search.Statements
import ObjSearch.Search.Catalog
import ObjSearch.Search.Condition
import ObjSearch.Search.CheckList
import ObjSearch.Search.FindObjects
import ObjSearch.Search.Completeness
import ObjSearch.Search.Agreement
import ObjSearch.Csv.Checked
import ObjSearch.Csv.Lines
import ObjSearch.Thread.Transactions
import ObjSearch.Csv.LastLine
import ObjSearch.Csv.Grammar
import ObjSearch.Csv.Columns
import ObjSearch.Scan.ScanArea
import ObjSearch.Scan.OnOk
import ObjSearch.Lib.Grid
import ObjSearch.Scan.Coverage
import ObjSearch.Settings.RangeLimit
import ObjSearch.Search.Centre
import ObjSearch.Search.Positions
import ObjSearch.Sql.Shape
import ObjSearch.Search.Quoting
import ObjSearch.Search.Verbatim
import ObjSearch.Search.Soundness
import ObjSearch.Lib.Decimals
import ObjSearch.Search.Results
import ObjSearch.Lib.Sorting
import ObjSearch.Search.Nearest
import ObjSearch.Search.Entries
import ObjSearch.Lib.Arrays
import ObjSearch.Lib.Pieces
import ObjSearch.Search.FromDMM
import ObjSearch.Search.Hemispheres
import ObjSearch.Csv.Import
import ObjSearch.Scan.DateLine
import ObjSearch.Scan.Termination
import ObjSearch.Csv.Quoted
import ObjSearch.Index.Origins
import ObjSearch.Search.Answers
import ObjSearch.Csv.Rows
import ObjSearch.Lib.Schedules
import ObjSearch.Thread.Progress
import ObjSearch.Thread.Waiting
import ObjSearch.Thread.Sequential
import ObjSearch.Search.Jumping
import ObjSearch.Search.Dialog
import ObjSearch.Search.Oriented
import ObjSearch.Search.Humanize
import ObjSearch.Scan.Indexing
import ObjSearch.Scan.Rows
import ObjSearch.Search.Charts
import ObjSearch.Search.Interleaved
import ObjSearch.Scan.Interleaved
