import ConcurrencyLab.Buffer.Basic
import ConcurrencyLab.Buffer.Queue
import ConcurrencyLab.Channel.Basic
import ConcurrencyLab.Channel.Threads
import ConcurrencyLab.Channel.Wakeup
import ConcurrencyLab.Channel.Close
import ConcurrencyLab.Channel.Fifo
import ConcurrencyLab.Channel.Unbuffered
import ConcurrencyLab.Harness.SendRecv
import ConcurrencyLab.Harness.Accounting
import ConcurrencyLab.Stress.Topology
import ConcurrencyLab.Stress.FloydWarshall
import ConcurrencyLab.Stress.Router
