import Blocxx.RWLock.Safety
import Blocxx.RWLock.Wakeup
import Blocxx.RWLock.SharedIds
import Blocxx.ThreadPool.Order
import Blocxx.ThreadPool.Wakeup
import Blocxx.ThreadPool.FrozenThreads
import Blocxx.ThreadPool.RefusedWork
import Blocxx.ThreadPool.WaitForEmptyQueue
import Blocxx.ThreadPool.WorkingThreads
import Blocxx.ThreadPool.Stranded
import Blocxx.PathSecurity.TwoForms
import Blocxx.UTF8Utils.InPlace
import Blocxx.UUID.UUID
import Blocxx.DateTime.Invariant
import Blocxx.DateTime.Calendar
import Blocxx.BinarySerialization.BinarySerialization
import Blocxx.TempFileStream.Release
import Blocxx.Enumeration.TempFileEnumerationImpl
import Blocxx.MTQueue.Wakeup
import Blocxx.ThreadBarrier.ThreadBarrierImpl
import Blocxx.DateTime.Arithmetic
import Blocxx.DateTime.CIM
import Blocxx.DateTime.FreeForm
import Blocxx.TimePeriod.TimePeriod
import Blocxx.LogMessagePatternFormatter.Termination
import Blocxx.String.WholeBytes
import Blocxx.SortedVectorMap.Refinement
import Blocxx.SortedVectorSet.Refinement
import Blocxx.Format.Substitution
import Blocxx.COWReference.Independence
import Blocxx.RegEx.Termination
import Blocxx.RegEx.Split
import Blocxx.RegEx.Captures
import Blocxx.RegEx.Query
import Blocxx.Process.Reaped
import Blocxx.Process.Escalation
import Blocxx.LogAppender.Bounded
import Blocxx.LogAppender.Rotation
import Blocxx.Select.BackEnds
import Blocxx.SelectEngine.LiveCallbacks
import Blocxx.Exec.Delivery
import Blocxx.Exec.EndOfOutput
import Blocxx.Exec.OutputLimit
import Blocxx.Exec.SingleString
import Blocxx.Exec.Deadline
import Blocxx.Semaphore.Semaphore
import Blocxx.WaitpidThreadFix.WaitpidThreadFix
import Blocxx.UnnamedPipe.UnnamedPipe
import Blocxx.UnnamedPipe.Descriptors
import Blocxx.StringBuffer.Bytes
import Blocxx.Secure.Secure
import Blocxx.Thread.Thread
import Blocxx.LazyGlobal.LazyGlobal
import Blocxx.CmdLineParser.RoundTrip
import Blocxx.String.Affixes
import Blocxx.String.Tokenize
import Blocxx.String.ReadObject
import Blocxx.String.CaseMapping
import Blocxx.UTF8Utils.WellFormed
import Blocxx.UTF8Utils.UCS2
import Blocxx.String.ToInt
import Blocxx.DateTime.Mutators
import Blocxx.DateTime.AddYears
import Blocxx.TimeDuration.Components
import Blocxx.TimeDuration.TimeDuration
import Blocxx.TimePeriod.Merge
import Blocxx.TimeoutTimer.TimeoutTimer
import Blocxx.CmdLineParser.FailedParse
import Blocxx.CmdLineParser.Lookup
import Blocxx.CmdLineParser.Usage
import Blocxx.LogMessagePatternFormatter.XMLMessage
import Blocxx.LogMessagePatternFormatter.Component
import Blocxx.LogMessagePatternFormatter.FieldWidth
import Blocxx.SecureRand.SecureRand
import Blocxx.RandomNumber.RandomNumber
import Blocxx.RandomNumber.MersenneTwister
import Blocxx.UUID.Text
import Blocxx.FileSystem.Path
import Blocxx.DateTime.Offset
import Blocxx.DateTime.Order
import Blocxx.UnnamedPipe.ReadAll
import Blocxx.StreamBuffer.IOIFCStreamBuffer
import Blocxx.StringBuffer.GetLine
import Blocxx.LogAppender.Shift
import Blocxx.EnvVars.EnvVars
import Blocxx.SafeCString.SafeCString
import Blocxx.StreamBuffer.FileBuf
import Blocxx.StreamBuffer.StringStream
import Blocxx.IConv.IConv
import Blocxx.ThreadCounter.ThreadCounter
import Blocxx.Mutex.MutexImpl
import Blocxx.ServerSocket.ServerSocketImpl
