import JarAtlas.Bytes

/-! What is asked of servers on the web, and what they answer. -/
namespace JarAtlas

structure Credentials where
  user : String
  password : String
  deriving DecidableEq, Repr

structure Request where
  url : String
  credentials? : Option Credentials
  deriving DecidableEq, Repr

structure TransferFault where
  text : String
  causes : List String := []
  deriving DecidableEq, Repr

/-- The content comes in pieces, in the order of the list. It may break off behind the last one. -/
structure Response where
  status : Nat
  length? : Option Nat := none
  pieces : List Bytes := []
  fault? : Option TransferFault := none
  /-- Hundredths of a second until the last piece was there. -/
  time : Nat := 0
  deriving DecidableEq, Repr

namespace Response

def fine (r : Response) : Bool := r.status == 200

/-- The length that is told, unless it is zero. -/
def total? (r : Response) : Option Nat := r.length?.filter (0 < ·)

end Response

class Web where
  answer : Request → Except TransferFault Response

instance noWeb : Web where
  answer _ := .error ⟨"error sending request", []⟩

end JarAtlas
