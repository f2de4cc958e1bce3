import Librim.Foundation.Transition
import Librim.Framing
import Librim.ProcessBuffer
import Librim.Foundation.PipelineCustody
import Librim.Foundation.PipelineOrder
import Librim.Foundation.PipelineFlow
import Librim.Foundation.PipelineWire
import Librim.Endpoint
import Librim.EndpointPipeline
import Librim.Ownership
import Librim.EndpointCore
import Librim.SendOrder
import Librim.Reopen
import Librim.UdpReceive
import Librim.Quiescence
import Librim.AsyncLogger
import Librim.LoggerFile
import Librim.LoggerShutdown
import Librim.LoggerProgress
import Librim.Context
import Librim.ApplicationRun
import Librim.Backpressure
import Librim.ReceiveLoop
import Librim.TcpReceive
import Librim.RoundTrip
import Librim.MessageDispatcher
import Librim.LogFormat
import Librim.ReceiveBounds
import Librim.Application
import Librim.UdpSend
import Librim.ReadTimeout
import Librim.Attempts
import Librim.ConnectAnswers
import Librim.Isolation
import Librim.TcpServer
import Librim.Tracking
import Librim.UdpSetup
import Librim.Foundation.Medium
import Librim.UdpNetwork
import Librim.SensorNetwork
import Librim.TcpLoop
import Librim.Delivery
import Librim.Completion
import Librim.Destruction
import Librim.ServerLifetime
import Librim.AcceptLoop
import Librim.Channel
import Librim.RequestResponse
import Librim.ApplicationNet
import Librim.DemoApp
import Librim.TcpNetwork
import Librim.UdpApplication
import Librim.HybridGateway
