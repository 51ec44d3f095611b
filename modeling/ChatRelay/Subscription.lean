import ChatRelay.Table
import ChatRelay.Text.Blank

namespace ChatRelay

-- What a connection wants to hear about.
inductive Subscription where
  | nothing
  | everything
  | chats (ids : IdSet)
deriving DecidableEq, Inhabited

namespace Subscription

-- The entry that asks for every chat.
def wildcard : String := "*"

inductive Refusal where
  | wildcardCombined
deriving DecidableEq

def Refusal.message : Refusal → String
  | wildcardCombined => "chatIDs cannot combine '*' with specific IDs"

-- The entries of a requested list that count.
def requested (chatIds : List String) : IdSet := .ofList (chatIds.filterMap Text.nonBlank?)

-- The wildcard, however often, asks for every chat; it does not go with anything else.
def ofChatIds (chatIds : List String) : Except Refusal Subscription :=
  let ids := requested chatIds
  if ids.contains wildcard then
    if ids.toList = [wildcard] then .ok everything else .error .wildcardCombined
  else if ids.isEmpty then .ok nothing
  else .ok (chats ids)

def covers (s : Subscription) (chatId : String) : Bool :=
  match s with
  | nothing => false
  | everything => true
  | chats ids => ids.contains chatId

-- The list that asks for this subscription, in ascending order.
def chatIds : Subscription → List String
  | nothing => []
  | everything => [wildcard]
  | chats ids => ids.toList

end Subscription

end ChatRelay
