import LinkTemplate.Text.Printable
import LinkTemplate.Text.Alphabet

/-!
# Quoted text

Messages show foreign text between quotes, so that a reader sees where it starts and ends and
no character of it can act on the terminal or break the line. The quote is `'`, or `"` if the
text holds `'` and no `"`. The quote in use and the backslash are escaped by a backslash; a
character that is not printable is shown by its number in hexadecimal.

The main statement is `isPrintable_of_mem_quoted`: a quoted text holds printable characters only.
-/

namespace LinkTemplate.Text

/-- The lower-case hexadecimal digit of a number below sixteen. -/
def smallHexDigit (n : Nat) : Char :=
  if n % 16 < 10 then Char.ofNat (0x30 + n % 16) else Char.ofNat (0x57 + n % 16)

/-- The lowest `count` hexadecimal digits of a number. -/
def hexDigits (count n : Nat) : Text :=
  match count with
  | 0 => []
  | count + 1 => hexDigits count (n / 16) ++ [smallHexDigit (n % 16)]

/-- A character by its number, in two, four or eight hexadecimal digits. -/
def numbered (c : Char) : Text :=
  if c.toNat < 0x100 then '\\' :: 'x' :: hexDigits 2 c.toNat
  else if c.toNat < 0x10000 then '\\' :: 'u' :: hexDigits 4 c.toNat
  else '\\' :: 'U' :: hexDigits 8 c.toNat

/-- One character between two `quote`s. -/
def quotedChar (quote c : Char) : Text :=
  if c = quote ∨ c = '\\' then ['\\', c]
  else if c = '\n' then ['\\', 'n']
  else if c = '\r' then ['\\', 'r']
  else if c = '\t' then ['\\', 't']
  else if isPrintable c then [c]
  else numbered c

/-- The quote that needs fewer escapes, `'` if both do. -/
def quoteFor (text : Text) : Char := if '\'' ∈ text ∧ '"' ∉ text then '"' else '\''

/-- The text in quotes. -/
def quoted (text : Text) : Text :=
  quoteFor text :: text.flatMap (quotedChar (quoteFor text)) ++ [quoteFor text]

/-! ## A quoted text is printable -/

theorem isPrintable_smallHexDigit (n : Nat) : isPrintable (smallHexDigit n) = true := by
  have table : ∀ d : Fin 16, isPrintable (smallHexDigit d.val) = true := by decide
  have h : smallHexDigit (n % 16) = smallHexDigit n := by simp [smallHexDigit]
  rw [← h]
  exact table ⟨n % 16, Nat.mod_lt _ (by decide)⟩

theorem isPrintable_of_mem_hexDigits {count n : Nat} {c : Char} (h : c ∈ hexDigits count n) :
    isPrintable c = true := by
  induction count generalizing n with
  | zero => simp [hexDigits] at h
  | succ count ih =>
    simp only [hexDigits, List.mem_append, List.mem_singleton] at h
    rcases h with h | rfl
    · exact ih h
    · exact isPrintable_smallHexDigit _

theorem isPrintable_of_mem_numbered {c d : Char} (h : d ∈ numbered c) : isPrintable d = true := by
  unfold numbered at h
  split at h
  · simp only [List.mem_cons] at h
    rcases h with rfl | rfl | h
    · decide
    · decide
    · exact isPrintable_of_mem_hexDigits h
  split at h
  · simp only [List.mem_cons] at h
    rcases h with rfl | rfl | h
    · decide
    · decide
    · exact isPrintable_of_mem_hexDigits h
  · simp only [List.mem_cons] at h
    rcases h with rfl | rfl | h
    · decide
    · decide
    · exact isPrintable_of_mem_hexDigits h

theorem isPrintable_of_mem_quotedChar {quote c d : Char} (hq : isPrintable quote = true)
    (h : d ∈ quotedChar quote c) : isPrintable d = true := by
  unfold quotedChar at h
  split at h
  · rename_i hc
    simp only [List.mem_cons, List.not_mem_nil, or_false] at h
    rcases h with rfl | rfl
    · decide
    · rcases hc with rfl | rfl
      · exact hq
      · decide
  split at h
  · simp only [List.mem_cons, List.not_mem_nil, or_false] at h
    rcases h with rfl | rfl <;> decide
  split at h
  · simp only [List.mem_cons, List.not_mem_nil, or_false] at h
    rcases h with rfl | rfl <;> decide
  split at h
  · simp only [List.mem_cons, List.not_mem_nil, or_false] at h
    rcases h with rfl | rfl <;> decide
  split at h
  · rename_i hc
    simp only [List.mem_singleton] at h
    exact h ▸ hc
  · exact isPrintable_of_mem_numbered h

theorem isPrintable_quoteFor (text : Text) : isPrintable (quoteFor text) = true := by
  unfold quoteFor
  split <;> decide

/-- **A quoted text holds printable characters only**, whatever the text held. -/
theorem isPrintable_of_mem_quoted {text : Text} {c : Char} (h : c ∈ quoted text) :
    isPrintable c = true := by
  simp only [quoted, List.mem_append, List.mem_cons, List.mem_flatMap, List.not_mem_nil,
    or_false] at h
  rcases h with (rfl | ⟨a, -, h⟩) | rfl
  · exact isPrintable_quoteFor text
  · exact isPrintable_of_mem_quotedChar (isPrintable_quoteFor text) h
  · exact isPrintable_quoteFor text

end LinkTemplate.Text
