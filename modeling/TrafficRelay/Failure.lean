import TrafficRelay.Header

/-!
# Failures

An input or output operation fails with an `IoError`; a `Failure` is what a
relay reports about one record, one write, one input or its settings.  Each
type has one function that words its message.
-/

namespace TrafficRelay

/-- The causes for which an input or output operation fails. -/
inductive IoErrorKind where
  | notFound
  | permissionDenied
  | connectionRefused
  | connectionReset
  | connectionAborted
  | notConnected
  | addressInUse
  | addressNotAvailable
  | brokenPipe
  | alreadyExists
  | wouldBlock
  | notADirectory
  | isADirectory
  | directoryNotEmpty
  | readOnlyFilesystem
  | invalidInput
  | invalidData
  | timedOut
  | writeZero
  | storageFull
  | fileTooLarge
  | resourceBusy
  | invalidFilename
  | interrupted
  | unsupported
  | unexpectedEnd
  | outOfMemory
  | other
  deriving DecidableEq, Repr, Inhabited

structure IoError where
  kind : IoErrorKind
  message : String
  deriving DecidableEq, Repr, Inhabited

namespace IoError

def notFound : IoError := ⟨.notFound, "No such file or directory (os error 2)"⟩

def notADirectory : IoError := ⟨.notADirectory, "Not a directory (os error 20)"⟩

def isADirectory : IoError := ⟨.isADirectory, "Is a directory (os error 21)"⟩

def nameTooLong : IoError := ⟨.invalidFilename, "File name too long (os error 36)"⟩

def nulInName : IoError :=
  ⟨.invalidInput, "file name contained an unexpected NUL byte"⟩

/-- Bytes that are no UTF-8 text where a text is expected. -/
def notText : IoError := ⟨.invalidData, "stream did not contain valid UTF-8"⟩

/-- A text that is not written in the expected format. -/
def malformedText : IoError := ⟨.invalidData, "malformed text"⟩

def rejectedWrite : IoError := ⟨.brokenPipe, "output rejected write"⟩

end IoError

/-- What went wrong with one record, one write, one input or the settings. -/
inductive Failure where
  | malformedRecord (reason : String)
  | noMethod
  | outputWrite (output : String) (cause : IoError)
  | inputRead (input : String) (cause : IoError)
  | settings (reason : String)
  deriving DecidableEq, Repr

namespace Failure

def ofHeaderError (error : HeaderError) : Failure := malformedRecord error.message

def message : Failure → String
  | malformedRecord reason => "malformed envelope: " ++ reason
  | noMethod => "unparsable request method"
  | outputWrite output cause =>
      "write to output '" ++ output ++ "' failed: " ++ cause.message
  | inputRead input cause =>
      "read from input '" ++ input ++ "' failed: " ++ cause.message
  | settings reason => "config error: " ++ reason

/-- The operation that failed underneath, if there is one. -/
def cause? : Failure → Option IoError
  | outputWrite _ cause | inputRead _ cause => some cause
  | malformedRecord _ | noMethod | settings _ => none

end Failure

end TrafficRelay
