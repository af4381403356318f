/-!
# Mailboxes

A mailbox keeps the newest messages for a reader, and the number of older ones that were lost
because the reader was late.
-/

namespace Waymark

structure Mailbox (α : Type) where
  lost : Nat
  messages : List α
  deriving DecidableEq

namespace Mailbox

def capacity : Nat :=
  64

def empty {α : Type} : Mailbox α :=
  ⟨0, []⟩

def post {α : Type} (mailbox : Mailbox α) (message : α) : Mailbox α :=
  let messages := mailbox.messages ++ [message]
  let surplus := messages.length - capacity
  ⟨mailbox.lost + surplus, messages.drop surplus⟩

def postAll {α : Type} (mailbox : Mailbox α) (messages : List α) : Mailbox α :=
  messages.foldl post mailbox

end Mailbox
end Waymark
