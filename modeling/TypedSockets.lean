import TypedSockets.Lib.Loop
import TypedSockets.Lib.Run
import TypedSockets.Lib.Owners
import TypedSockets.Lib.Locks
import TypedSockets.Socket.Objects
import TypedSockets.Socket.Leak
import TypedSockets.Endpoint.Observer
import TypedSockets.Endpoint.Dispatch
import TypedSockets.Endpoint.Connect
import TypedSockets.Endpoint.Peer
import TypedSockets.Endpoint.Observable
import TypedSockets.Endpoint.OnConnect
import TypedSockets.Endpoint.Drain
import TypedSockets.Endpoint.Accept
import TypedSockets.Endpoint.Locking
import TypedSockets.Endpoint.Throwing
import TypedSockets.Socket.Calls
import TypedSockets.Socket.Transfer
import TypedSockets.Socket.Typestate
import TypedSockets.Endpoint.Session
import TypedSockets.Socket.Layout
import TypedSockets.Endpoint.Restart
import TypedSockets.Endpoint.CallOrder
import TypedSockets.Endpoint.EraseOnce
import TypedSockets.App.Answers
import TypedSockets.App.ServerMain
import TypedSockets.Endpoint.Isolation
import TypedSockets.Endpoint.FailedStart
import TypedSockets.Epoll.Buffer
import TypedSockets.Endpoint.OneShot
import TypedSockets.Endpoint.ServerRun
import TypedSockets.Endpoint.Unregister
import TypedSockets.Endpoint.Stop
import TypedSockets.Endpoint.EmptyCall
import TypedSockets.Endpoint.Reconnect
import TypedSockets.Endpoint.Reentry
import TypedSockets.Socket.Consumed
import TypedSockets.Socket.AddressText
import TypedSockets.App.Response
import TypedSockets.Endpoint.Ports
import TypedSockets.App.ActiveSockets
import TypedSockets.App.Delivery
import TypedSockets.Endpoint.OwnEvents
import TypedSockets.Endpoint.ThreadedCalls
import TypedSockets.Endpoint.OverEpoll
import TypedSockets.App.Dialogue
import TypedSockets.App.ClientLoop
import TypedSockets.App.TcpServer
import TypedSockets.App.TcpService
import TypedSockets.App.Network
import TypedSockets.App.Datagrams
import TypedSockets.App.AsyncStdin
