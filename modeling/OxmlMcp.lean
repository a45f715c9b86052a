import OxmlMcp.Lts.Run
import OxmlMcp.Sessions.Step
import OxmlMcp.Sessions.Cap
import OxmlMcp.Sessions.Overshoot
import OxmlMcp.Lts.Log
import OxmlMcp.Sessions.History
import OxmlMcp.Sessions.Histories
import OxmlMcp.Mpsc.Channel
import OxmlMcp.Mpsc.Parking
import OxmlMcp.Sse.Step
import OxmlMcp.Lts.Parties
import OxmlMcp.Sse.Inversion
import OxmlMcp.Sse.Table
import OxmlMcp.Sse.Slots
import OxmlMcp.Sse.Channels
import OxmlMcp.Sse.Delivery
import OxmlMcp.Sse.Inbox
import OxmlMcp.Sse.Waiting
import OxmlMcp.Sse.Outbox
import OxmlMcp.Lts.Rest
import OxmlMcp.Sse.Settle
import OxmlMcp.Mailbox.Directory
import OxmlMcp.Sse.Directory
import OxmlMcp.Sse.Realize
import OxmlMcp.Sse.Alone
import OxmlMcp.Access.Meet
import OxmlMcp.Lines.Limit
import OxmlMcp.Stdio.BoundedLines
import OxmlMcp.Access.Policy
import OxmlMcp.Sse.Rebinding
import OxmlMcp.Access.Sdk
import OxmlMcp.Text.Utf8
import OxmlMcp.Tools.Document
import OxmlMcp.Tools.Output
import OxmlMcp.Tools.Query
import OxmlMcp.Tools.StringValue
import OxmlMcp.Tools.Inspect
import OxmlMcp.Lines.Report
import OxmlMcp.Tools.InspectText
import OxmlMcp.Tools.XpathPosition
import OxmlMcp.Tools.Budget
import OxmlMcp.Maps.Census
import OxmlMcp.Tools.Census
import OxmlMcp.Tools.Depth
import OxmlMcp.Cli.Parse
import OxmlMcp.Cli.Grammar
import OxmlMcp.Net.Display
import OxmlMcp.Access.Spelling
import OxmlMcp.Json.Value
import OxmlMcp.Tools.Validate
import OxmlMcp.Tools.Format
import OxmlMcp.Tools.Server
