import TableOrder.Lib.Bytes
import TableOrder.Lib.Int
import TableOrder.Lib.Decimal
import TableOrder.Lib.Arr
import TableOrder.Lib.OrdMap
import TableOrder.Lib.Runs
import TableOrder.Lib.Cell
import TableOrder.Lib.Lifecycle
import TableOrder.Lib.Replay
import TableOrder.Lib.Rows
import TableOrder.Lib.Pieces
import TableOrder.Lib.Window
import TableOrder.Lib.Replica
import TableOrder.Lib.Stream
import TableOrder.Lib.Moments
import TableOrder.Lib.Fifo
import TableOrder.Lib.LineReader
import TableOrder.Lib.Refresh
import TableOrder.Lib.TempFile
import TableOrder.Common
import TableOrder.Order
import TableOrder.Menu
import TableOrder.Keyed
import TableOrder.Storage
import TableOrder.ConfigFile
import TableOrder.Protocol.Request
import TableOrder.Protocol.Pairs
import TableOrder.Protocol.Event
import TableOrder.Protocol.Menu
import TableOrder.Server.Basic
import TableOrder.Server.Client
import TableOrder.Server.Reader
import TableOrder.Server.Intake
import TableOrder.Server.Steps
import TableOrder.Server.KitchenUpdate
import TableOrder.Server.Typed
import TableOrder.Server.Slots
import TableOrder.Server.Sales
import TableOrder.Server.History
import TableOrder.Server.TableRange
import TableOrder.Server.Replay
import TableOrder.Server.Session
import TableOrder.Server.Wire
import TableOrder.Server.Connections
import TableOrder.Server.ConfigSave
import TableOrder.Server.Durability
import TableOrder.Server.OrderBook
import TableOrder.Server.Restarts
import TableOrder.Pos.Layout
import TableOrder.Pos.Payment
import TableOrder.Pos.Keys
import TableOrder.Pos.Board
import TableOrder.Pos.Viewport
import TableOrder.Pos.SalesTail
import TableOrder.Pos.Editor
import TableOrder.Pos.TableIds
import TableOrder.Pos.LayoutFile
import TableOrder.Pos.LayoutReload
import TableOrder.Pos.MenuFile
import TableOrder.Pos.MenuForm
import TableOrder.Pos.Highlight
import TableOrder.Client.Kitchen
import TableOrder.Client.KitchenBoard
import TableOrder.Client.MenuView
import TableOrder.Client.MenuGrid
import TableOrder.Client.Table
import TableOrder.Client.Screens
import TableOrder.Client.MenuCursor
import TableOrder.Client.CartCursor
import TableOrder.Client.StatusScreen
import TableOrder.Client.MenuScreen
import TableOrder.Client.Mirror
import TableOrder.Client.Submit
import TableOrder.Client.Visit
import TableOrder.Client.Reader
import TableOrder.SocketLines
import TableOrder.Client.NetQueue
import TableOrder.Client.MenuSync
import TableOrder.Client.Shop
import TableOrder.Client.Heard
import TableOrder.Pos.Balance
import TableOrder.Pos.Collect
import TableOrder.Client.Requests
import TableOrder.Client.Programs
import TableOrder.Client.Landing
import TableOrder.Client.BrokenLink
import TableOrder.Pos.Calls
import TableOrder.Pos.Screen
import TableOrder.Pos.UpToDate
import TableOrder.Pos.Shifts
