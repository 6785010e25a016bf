import Mathlib.Init

/-!
# Interaction Model status codes (`im/status.go`)
-/

namespace GF.Impl.Im

/-- `StatusCode`, a byte with named values. -/
abbrev StatusCode := BitVec 8

namespace StatusCode

def success : StatusCode := 0x00
def failure : StatusCode := 0x01
def unsupportedAccess : StatusCode := 0x7e
def unsupportedEndpoint : StatusCode := 0x7f
def invalidAction : StatusCode := 0x80
def invalidCommand : StatusCode := 0x85
def unsupportedAttribute : StatusCode := 0x86
def constraintError : StatusCode := 0x87
def unsupportedWrite : StatusCode := 0x88
def resourceExhausted : StatusCode := 0x89
def dataVersionMismatch : StatusCode := 0x92
def busy : StatusCode := 0x9c
def unsupportedCluster : StatusCode := 0xc3
def needsTimedInteraction : StatusCode := 0xc6

def isSuccess (s : StatusCode) : Bool := s == success

end StatusCode

end GF.Impl.Im
