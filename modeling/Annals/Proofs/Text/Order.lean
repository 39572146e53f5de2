import Annals.Bytes

/-!
# The order of texts

Texts are in order code point by code point. Their octets in UTF-8 are in the same order, octet by octet.
-/

namespace Annals

end Annals
