import Parley.Text.Blank

/-!
# `Parley/Meeting/SignalingUrl.lean` — addresses of a signaling service

A signaling service is addressed by a web socket URL. The client checks only what it relies on: the
scheme is one of two, a host follows it, and no blank character occurs anywhere. The check is part
of the type, so whoever holds a `SignalingUrl` may dial it.
-/

set_option autoImplicit false

namespace Parley

namespace SignalingUrl

/-- What follows the scheme of a web socket URL. -/
def afterScheme (url : List Char) : Option (List Char) :=
  ("wss://".toList.isPrefixOf? url) <|> ("ws://".toList.isPrefixOf? url)

/-- The characters that end the host of a URL. -/
def endsHost (c : Char) : Bool := c == '/' || c == '?' || c == '#'

/-- Whether a text is a web socket URL with a host and without a blank character. -/
def isValid (url : String) : Bool :=
  match afterScheme url.toList with
  | none => false
  | some rest => !(rest.takeWhile fun c => !endsHost c).isEmpty && !url.toList.any Text.isBlank

end SignalingUrl

/-- The address of a signaling service. -/
structure SignalingUrl where
  text : String
  valid : SignalingUrl.isValid text = true
  deriving DecidableEq

namespace SignalingUrl

/-- Reads an address; none if the text is not one. -/
def ofString? (text : String) : Option SignalingUrl :=
  if h : isValid text = true then some ⟨text, h⟩ else none

end SignalingUrl

end Parley
