import MyLibevent.Proofs.Changelist
import MyLibevent.Proofs.EventTagging
import MyLibevent.Proofs.EvbufferRun
import MyLibevent.Proofs.CommonTimeoutRun
import MyLibevent.Proofs.RateLimitChange
import MyLibevent.Proofs.Getaddrinfo
import MyLibevent.Proofs.DnsNameBounds
import MyLibevent.Proofs.DnsReply
import MyLibevent.Proofs.UriQuery
import MyLibevent.Proofs.HttpServer
import MyLibevent.Proofs.EvdnsRun
import MyLibevent.Proofs.GateServer
import MyLibevent.Proofs.PersistTimeout
import MyLibevent.Proofs.EvbufferCallbacks
import MyLibevent.Proofs.ObjectManager
import MyLibevent.Proofs.TimerManager
import MyLibevent.Proofs.MemPool
import MyLibevent.Proofs.ClientCommEngine
import MyLibevent.Proofs.ProxyTransfer
import MyLibevent.Proofs.Sockaddr
import MyLibevent.Proofs.Watermark
import MyLibevent.Proofs.BuffereventPair
import MyLibevent.Proofs.ShareMap
import MyLibevent.Proofs.GateDisconnect
import MyLibevent.Proofs.Poll
import MyLibevent.Proofs.PoolServer
import MyLibevent.Proofs.PersistDeadline
import MyLibevent.Proofs.EvbufferReadln
import MyLibevent.Proofs.Vhost
import MyLibevent.Proofs.ChunkSize
import MyLibevent.Proofs.Deferred
import MyLibevent.Proofs.Weakrand
import MyLibevent.Proofs.HtmlEscape
import MyLibevent.Proofs.ServerTool
import MyLibevent.Proofs.DatabaseMysql
