import Ibdxnet.Lib.Lts
import Ibdxnet.Lib.Ring
import Ibdxnet.Lib.Sums
import Ibdxnet.Lib.Arith
import Ibdxnet.Lib.Updates
import Ibdxnet.Lib.Exec
import Ibdxnet.Lib.FifoBag
import Ibdxnet.Lib.LittleEndian
import Ibdxnet.Lib.Channels
import Ibdxnet.Lib.LockOrder
import Ibdxnet.Sys.Exception
import Ibdxnet.Sys.StringUtils
import Ibdxnet.Sys.AddressIPV4
import Ibdxnet.Core.IbProtDom
import Ibdxnet.Dx.RecvBufferPool
import Ibdxnet.Dx.PoolConservation
import Ibdxnet.Dx.BatchOperations
import Ibdxnet.Dx.RecvBufferPoolSteps
import Ibdxnet.Dx.RecvBufferPoolReturns
import Ibdxnet.Dx.RecvBufferPoolWords
import Ibdxnet.Dx.RecvBufferPoolMemory
import Ibdxnet.Dx.ExecutionEngine
import Ibdxnet.Msgrc.SendHandler
import Ibdxnet.Msgrc.SendWorkRequestCtxPool
import Ibdxnet.Msgrc.SendWorkRequests
import Ibdxnet.Msgrc.SendSlicing
import Ibdxnet.Msgrc.SendDispatcher
import Ibdxnet.Msgrc.SendSteps
import Ibdxnet.Msgrc.ExactSlicing
import Ibdxnet.Msgrc.SliceArithmetic
import Ibdxnet.Msgrc.FullBuffer
import Ibdxnet.Msgrc.SgeLimit
import Ibdxnet.Msgrc.SendAccounting
import Ibdxnet.Msgrc.SendFailures
import Ibdxnet.Msgrc.FlushErrors
import Ibdxnet.Msgrc.SendReporting
import Ibdxnet.Msgrc.CompletionCapacity
import Ibdxnet.Msgrc.SendHandles
import Ibdxnet.Msgrc.CompletedWorkList
import Ibdxnet.Msgrc.SendCompletions
import Ibdxnet.Msgrc.IncomingRingBuffer
import Ibdxnet.Msgrc.RecvWorkRequestPool
import Ibdxnet.Msgrc.WorkRequestPools
import Ibdxnet.Msgrc.RecvDispatcher
import Ibdxnet.Msgrc.RecvSteps
import Ibdxnet.Msgrc.RecvQueues
import Ibdxnet.Msgrc.RecvOwnership
import Ibdxnet.Msgrc.Disconnects
import Ibdxnet.Msgrc.RecvDelivery
import Ibdxnet.Msgrc.RecvCapacity
import Ibdxnet.Msgrc.Transfer
import Ibdxnet.Msgrc.Cluster
import Ibdxnet.Connection.ConnectionState
import Ibdxnet.Connection.JobQueue
import Ibdxnet.Connection.QueueTeardown
import Ibdxnet.Connection.JobQueueSteps
import Ibdxnet.Connection.Connection
import Ibdxnet.Connection.DiscoveryManager
import Ibdxnet.Connection.ConnectionManager
import Ibdxnet.Connection.ConnectionSteps
import Ibdxnet.Connection.LinkInvariant
import Ibdxnet.Connection.ConnectionIds
import Ibdxnet.Connection.OpenConnections
import Ibdxnet.Connection.Handles
import Ibdxnet.Connection.HandleCounting
import Ibdxnet.Connection.ReExchange
import Ibdxnet.Connection.GracefulClose
import Ibdxnet.Connection.HandleLifetime
import Ibdxnet.Connection.Restart
import Ibdxnet.Connection.ExchangeManager
import Ibdxnet.Connection.HostileTraffic
import Ibdxnet.Connection.PayloadIntegrity
import Ibdxnet.Connection.ExchangeRoundTrip
import Ibdxnet.Connection.CreateJobs
import Ibdxnet.Connection.DiscoveryBookkeeping
import Ibdxnet.Connection.DiscoveredConnections
import Ibdxnet.Connection.Exchange
import Ibdxnet.Connection.Pair
import Ibdxnet.Connection.Provenance
import Ibdxnet.Connection.Handshake
import Ibdxnet.Connection.Quiescence
import Ibdxnet.Connection.Sessions
import Ibdxnet.Connection.ReplyTermination
import Ibdxnet.Connection.Shutdown
import Ibdxnet.Connection.QueuePairs
import Ibdxnet.Connection.DiscoveryNetwork
import Ibdxnet.Connection.JobManager
import Ibdxnet.Connection.NodeConf
import Ibdxnet.Connection.Locks
import Ibdxnet.Connection.TypeIds
import Ibdxnet.Msgrc.LoopbackSystem
import Ibdxnet.Msgrc.MsgrcSystem
