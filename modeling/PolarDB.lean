import PolarDB.LogIndex.RestartExact
import PolarDB.LogIndex.WholeRuns
import PolarDB.Xlog.MainDataExact
import PolarDB.RingBuf.KeepData
import PolarDB.RingBuf.FreeUp
import PolarDB.RingBuf.PacketExact
import PolarDB.Buffer.CopyPool
import PolarDB.LockReplay.AsyncLockExact
import PolarDB.ProcPool.AddTask
import PolarDB.ProcPool.Progress
import PolarDB.FullPage.SlotNumbers
import PolarDB.BgReplay.OldestLsn
import PolarDB.PageReplay.OutdateExact
import PolarDB.Rsc.Coherence
import PolarDB.Rsc.Replica
import PolarDB.RelSize.Answer
import PolarDB.LocalCache.Transparency
import PolarDB.Buffer.FlushList
import PolarDB.Buffer.ConsistentMono
import PolarDB.Buffer.NoFuturePage
import PolarDB.LogIndex.TableInvariant
import PolarDB.LogIndex.BloomSkip
import PolarDB.LogIndex.ApplyPage
import PolarDB.LogIndex.MetaRefresh
import PolarDB.LogIndex.CheckpointRing
import PolarDB.LogIndex.ReplicaTables
import PolarDB.Slru.InvalidPage
import PolarDB.LocalCache.LockDiscipline
import PolarDB.Xlog.PageBuffer
import PolarDB.Vfs.DirectIO
