import LearnForCpp.Lib.Outcome

/-!
# Faults of the program

The ways in which a call of this code base does not return: a failed `assert`, an exception of
the standard library that nothing catches, a `LOG_FATAL` record, or a memory access outside its
object.  Each `assert` of the modelled code has its own name here.
-/

namespace Jiangbo

/-- The `assert`s of the modelled code. -/
inductive Assertion
  -- Buffer.h
  | retrieveLen
  | retrieveUntilPeek
  | retrieveUntilBeginWrite
  | ensureWritable
  | prependLen
  | makeSpaceReader
  | makeSpaceReadable
  -- Epoller.cc
  | epollAddAbsent
  | epollModChannel
  | epollDelChannel
  | epollDelNoneEvent
  | epollDelRegistered
  | fillActiveFound
  -- TcpConnection.cc
  | nwrote
  | connectEstablishedState
  | handleCloseState
  | connectDestoryedState
  -- TcpServer.cc and TcpClient.cc
  | removeConnectionErased
  | removeConnectionCurrent
  -- Connector.cc
  | startInLoopState
  | connectingChannel
  | handleWriteState
  | handleErrorState
  | dtorChannel
  -- boost::scoped_ptr
  | scopedPtr
  -- EventLoopThreadPool.cc
  | poolStarted
  -- TimerQueue.cc
  | getexpirationNow
  | insertUnique
  -- Logging.cc, LoggingStream.h and LoggingStream.cc
  | timeLength
  | microsecondsLength
  | tidLength
  | tLength
  | fmtLength
  -- LogFile.cc
  | basenameSlash
  deriving DecidableEq, Repr

/-- The ways a call does not return. -/
inductive Fault
  /-- A failed `assert`. -/
  | assertion (a : Assertion)
  /-- `std::length_error` from `std::vector::resize`. -/
  | lengthError
  /-- `LOG_FATAL` in `EventLoop::abortNotInLoopThread`. -/
  | notInLoopThread
  /-- An access outside the bytes of an object. -/
  | outOfBounds
  /-- A use of an object that was deleted. -/
  | useAfterFree
  deriving DecidableEq, Repr

/-- A statement on a state `σ`. -/
abbrev Result (σ : Type*) := Outcome Fault σ

end Jiangbo
