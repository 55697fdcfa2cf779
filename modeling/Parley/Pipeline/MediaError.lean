/-!
# `Parley/Pipeline/MediaError.lean` — what can go wrong with audio
-/

set_option autoImplicit false

namespace Parley

inductive MediaError where
  | source (detail : String)
  | unsupportedCodec (detail : String)
  | decode (detail : String)
  /-- So many frames in a row could not be decoded. -/
  | sustainedDecodeFailure (consecutive : Nat)
  /-- Remote audio could not be written. -/
  | sink
  deriving DecidableEq

def MediaError.message : MediaError → String
  | .source detail => "audio source error: " ++ detail
  | .unsupportedCodec detail => "unsupported codec: " ++ detail
  | .decode detail => "decode error: " ++ detail
  | .sustainedDecodeFailure consecutive =>
    toString consecutive ++ " consecutive frames failed to decode"
  | .sink => "media sink error"

end Parley
