/-!
# Session numbers

Sessions are numbered from 1 in the order in which they are launched.
-/

namespace Choreo

structure SessionId where
  number : Nat
deriving DecidableEq

namespace SessionId

def text (id : SessionId) : String := "#" ++ Nat.repr id.number

end SessionId

end Choreo
