import QuorumDispatch.Lib.Lines
import QuorumDispatch.Lib.Text

/-!
A text file that grows by whole lines, each written as `line + newline` in one
call that may be cut short after any number of bytes.

As long as every call finds the file on a line boundary, the file at a boundary
is valid text, and a completed call adds exactly its own line. A call that
finds the file elsewhere has its line glued to the torn one.
-/

namespace QuorumDispatch.Lib

def AtLineBoundary (content : Bytes) : Prop :=
  content = [] ∨ content.getLast? = some newline

instance (content : Bytes) : Decidable (AtLineBoundary content) :=
  inferInstanceAs (Decidable (_ ∨ _))

/-- Write `line + newline`, of which `cut` bytes get out. -/
def writeLine (content : Bytes) (line : List Char) (cut : Nat) : Bytes :=
  content ++ (encodeUtf8 (line ++ ['\n'])).take cut

def Whole (line : List Char) (cut : Nat) : Prop :=
  (encodeUtf8 line).length + 1 ≤ cut

instance (line : List Char) (cut : Nat) : Decidable (Whole line cut) :=
  inferInstanceAs (Decidable (_ ≤ _))

variable {content : Bytes} {line text : List Char} {cut : Nat}

@[simp] theorem writeLine_zero : writeLine content line 0 = content := by
  simp [writeLine]

theorem writeLine_of_whole (h : Whole line cut) :
    writeLine content line cut = content ++ encodeUtf8 (line ++ ['\n']) := by
  unfold writeLine
  unfold Whole at h
  rw [List.take_of_length_le]
  simpa using h

theorem atLineBoundary_of_whole (h : Whole line cut) :
    AtLineBoundary (writeLine content line cut) := by
  right
  simp [writeLine_of_whole h]

theorem cut_of_atLineBoundary (hline : '\n' ∉ line)
    (h : AtLineBoundary (writeLine content line cut)) : cut = 0 ∨ Whole line cut := by
  rcases Nat.eq_zero_or_pos cut with hcut | hcut
  · exact .inl hcut
  right
  apply Nat.le_of_not_lt
  intro hlt
  -- a nonempty part of the line ends in a byte of the line
  have hpart : (encodeUtf8 (line ++ ['\n'])).take cut = (encodeUtf8 line).take cut := by
    rw [encodeUtf8_append, List.take_append_of_le_length (by omega)]
  have hlen : ((encodeUtf8 line).take cut).length = cut := by
    rw [List.length_take]
    omega
  have hne : (encodeUtf8 line).take cut ≠ [] := by
    intro hnil
    rw [hnil, List.length_nil] at hlen
    omega
  obtain ⟨b, hb⟩ : ∃ b, ((encodeUtf8 line).take cut).getLast? = some b :=
    ⟨_, List.getLast?_eq_some_getLast hne⟩
  rw [writeLine, hpart] at h
  rcases h with h | h
  · exact hne (List.append_eq_nil_iff.mp h).2
  · rw [List.getLast?_append, hb, Option.some_or, Option.some.injEq] at h
    have hmem : newline ∈ encodeUtf8 line :=
      List.mem_of_mem_take (h ▸ List.mem_of_getLast? hb)
    exact newline_notMem_encodeUtf8 hline hmem

theorem tail_of_atLineBoundary (h : AtLineBoundary content)
    (htext : decodeUtf8 content = some text) : (Lines.of '\n' text).tail = [] := by
  rw [Lines.of_tail_eq_nil_iff]
  have henc := encodeUtf8_of_decodeUtf8 htext
  rcases List.eq_nil_or_concat text with rfl | ⟨front, c, rfl⟩
  · exact .inl rfl
  right
  rcases h with h | h
  · rw [h, List.concat_eq_append, encodeUtf8_append] at henc
    have hc : encodeUtf8 [c] = [] := (List.append_eq_nil_iff.mp henc).2
    simp [encodeUtf8] at hc
  · rw [← henc, List.concat_eq_append, encodeUtf8_append] at h
    have hne : encodeUtf8 [c] ≠ [] := by simp [encodeUtf8]
    rw [List.getLast?_append_of_ne_nil _ hne] at h
    have hmem : newline ∈ String.utf8EncodeChar c := by
      simpa [encodeUtf8] using List.mem_of_getLast? h
    simp [eq_newline_of_mem_utf8EncodeChar hmem]

theorem decodeUtf8_writeLine (htext : decodeUtf8 content = some text) (h : Whole line cut) :
    decodeUtf8 (writeLine content line cut) = some (text ++ (line ++ ['\n'])) := by
  rw [writeLine_of_whole h, decodeUtf8_append_encodeUtf8 htext]

theorem lines_writeLine (hline : '\n' ∉ line) (htail : (Lines.of '\n' text).tail = []) :
    Lines.of '\n' (text ++ (line ++ ['\n'])) =
      ⟨(Lines.of '\n' text).terminated ++ [line], []⟩ := by
  rw [Lines.of_append, Lines.extend_append, Lines.extend_of_notMem hline, Lines.extend_sep,
    htail]
  rfl

end QuorumDispatch.Lib
