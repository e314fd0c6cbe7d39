import Pccl.Server.Kicks
import Pccl.Server.Streams
import Pccl.Ring.Averages
import Pccl.Ring.Windows
import Pccl.Ring.Bounds
import Pccl.Socket.Queued
import Pccl.Socket.Receiving
import Pccl.Ring.Metadata
import Pccl.Ring.Forwarding
import Pccl.Client.Restore
import Pccl.Client.RetryReduces
import Pccl.Master.Answered
import Pccl.Master.Alternation
import Pccl.Master.Verdicts
import Pccl.Master.Sequence
import Pccl.Master.Tours
import Pccl.Master.Optimizer
import Pccl.Master.Measurements
import Pccl.Master.Scheduling
import Pccl.Master.WorldSizes
import Pccl.Client.Incoming
import Pccl.Master.Elections
import Pccl.Client.Joins
import Pccl.Client.SharedStateTransfer
import Pccl.Hash.SimpleHash
import Pccl.Session.Agreement
