import AgePluginPhone.Library.CborItem

/-!
# Lines and fields of text

The lines of a text, the fields between its white space, and the text without the white space
around it.
-/

namespace AgePluginPhone.Library.TextFields

/-- The Unicode property `White_Space`. -/
def isWhitespace (c : Char) : Bool :=
  let n := c.toNat
  (9 ≤ n && n ≤ 13) || n == 32 || n == 133 || n == 160 || n == 5760 || (8192 ≤ n && n ≤ 8202) ||
    n == 8232 || n == 8233 || n == 8239 || n == 8287 || n == 12288

/-- A line feed ends a line, with the carriage return before it. -/
def withoutReturn (line : List Char) : List Char :=
  if line.getLast? = some '\r' then line.dropLast else line

/-- The lines of a text. What follows the last line feed is a line unless it is empty. -/
def lines (text : String) : List String :=
  let pieces := text.toList.splitOn '\n'
  let last := pieces.getLastD []
  (pieces.dropLast.map fun line => String.ofList (withoutReturn line)) ++
    if last = [] then [] else [String.ofList last]

def splitWhitespace (text : String) : List String :=
  ((text.toList.splitOnP isWhitespace).filter (· ≠ [])).map String.ofList

def trim (text : String) : String :=
  String.ofList (((text.toList.dropWhile isWhitespace).reverse.dropWhile isWhitespace).reverse)

/-- A line that ends with a line feed, and the lines after it. -/
theorem lines_append {line : String} (hline : '\n' ∉ line.toList) (hreturn : '\r' ∉ line.toList)
    (rest : String) : lines (line ++ "\n" ++ rest) = line :: lines rest := by
  have hpieces : (line ++ "\n" ++ rest).toList.splitOn '\n' =
      line.toList :: rest.toList.splitOn '\n' := by
    rw [String.toList_append, String.toList_append, List.append_assoc]
    exact List.splitOn_append_cons_self_of_not_mem hline _
  have hwhole : withoutReturn line.toList = line.toList := by
    apply if_neg
    intro hlast
    exact hreturn (List.mem_of_getLast? hlast)
  unfold lines
  rw [hpieces]
  cases hrest : rest.toList.splitOn '\n' with
  | nil => exact absurd hrest (List.splitOn_ne_nil _ _)
  | cons piece pieces =>
      dsimp only
      rw [List.dropLast_cons_of_ne_nil (by simp), List.map_cons, hwhole, String.ofList_toList,
        List.cons_append]
      rfl

private theorem dropWhile_concat {p : Char → Bool} {c : Char} (h : p c = false) (chars : List Char) :
    ∃ kept, (chars ++ [c]).dropWhile p = kept ++ [c] := by
  induction chars with
  | nil => exact ⟨[], by simp [h]⟩
  | cons d chars ih =>
      by_cases hd : p d = true
      · rw [List.cons_append, List.dropWhile_cons_of_pos hd]
        exact ih
      · exact ⟨d :: chars, List.dropWhile_cons_of_neg hd⟩

/-- A text that starts with no white space still starts so once it is trimmed. -/
theorem trim_of_cons {text : String} {c : Char} {chars : List Char} (h : text.toList = c :: chars)
    (hc : isWhitespace c = false) : ∃ kept, (trim text).toList = c :: kept := by
  rw [trim, String.toList_ofList, h, List.dropWhile_cons_of_neg (by simp [hc]), List.reverse_cons]
  obtain ⟨kept, hkept⟩ := dropWhile_concat hc chars.reverse
  exact ⟨kept.reverse, by simp [hkept]⟩

theorem dropWhile_eq_self {p : Char → Bool} {chars : List Char} (h : ∀ c ∈ chars, p c = false) :
    chars.dropWhile p = chars := by
  cases chars with
  | nil => rfl
  | cons c chars => exact List.dropWhile_cons_of_neg (by simp [h c List.mem_cons_self])

theorem trim_eq_self {text : String} (h : ∀ c ∈ text.toList, isWhitespace c = false) :
    trim text = text := by
  have hreversed : ∀ c ∈ text.toList.reverse, isWhitespace c = false := by
    intro c hc
    exact h c (List.mem_reverse.mp hc)
  rw [trim, dropWhile_eq_self h, dropWhile_eq_self hreversed, List.reverse_reverse,
    String.ofList_toList]

end AgePluginPhone.Library.TextFields
