import OpenChat.Foundation.StringLiteral
import OpenChat.Foundation.CutStream
import OpenChat.Foundation.EchoLoop
import OpenChat.Server.Broadcast
import OpenChat.Server.Registry
import OpenChat.Server.Separation
import OpenChat.Client.ClientDlg
import OpenChat.Client.Accounts
import OpenChat.Client.Connections
import OpenChat.Chat.Deadlock
import OpenChat.Chat.Upstream
import OpenChat.Chat.Echo
import OpenChat.Chat.Boundaries
import OpenChat.Server.Disclosure
import OpenChat.Server.AcceptLoops
import OpenChat.Server.Handover
import OpenChat.Server.Ownership
import OpenChat.Server.RowIndices
import OpenChat.Client.Outcomes
import OpenChat.Client.Credentials
import OpenChat.Server.Notifications
import OpenChat.Server.Panel
import OpenChat.Server.RowSockets
import OpenChat.Server.SendClientMsg
import OpenChat.Chat.Reception
import OpenChat.Client.QueryResult
import OpenChat.Client.ConnectFailure
import OpenChat.Client.Status
import OpenChat.Chat.Characters
import OpenChat.Chat.InfoBox
import OpenChat.Chat.Conversation
import OpenChat.Server.RowOwners
import OpenChat.Server.Addressing
import OpenChat.Server.AfterClose
import OpenChat.Foundation.Switchboard
import OpenChat.Server.Wires
import OpenChat.Client.LoginSession
import OpenChat.Server.Notices
import OpenChat.Server.Departures
import OpenChat.Client.Replies
import OpenChat.Server.Delivery
import OpenChat.Foundation.Simulation
import OpenChat.Server.ChatRoom
import OpenChat.Server.House
