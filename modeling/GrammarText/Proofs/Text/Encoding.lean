import GrammarText.Proofs.Text.LineCuts
import GrammarText.Text.Stream
import Mathlib.Data.Set.List

/-!
# Lines of an encoded text

A byte stream is cut into lines first and then decoded line by line; a text is decoded first and then cut.  The two come
to the same because UTF-8 keeps ASCII apart: the byte of an ASCII character stands for that character and occurs in no
other character's bytes, so a line feed or a carriage return is found among the bytes exactly where it is in the text.

* `splitOn_encode`, `dropReturn_encode`: cutting at an ASCII character and encoding may change places, hence
  `lines_encode`;
* `exists_encode_of_lines`: bytes whose lines are encoded texts are one encoded text, so that no ill-formed sequence
  gets lost at a line end;
* `readLines?_eq_some_iff`: reading by lines accepts the streams that are UTF-8 as a whole.
-/

namespace GrammarText.Text

/-! ## The bytes of a character -/

/-- An ASCII character is encoded in one byte. -/
theorem utf8EncodeChar_ascii {c : Char} (hc : c.toNat ≤ 127) : String.utf8EncodeChar c = [UInt8.ofNat c.toNat] :=
  if_pos hc

/-- Any other character is encoded in bytes that no ASCII character has. -/
theorem le_of_mem_utf8EncodeChar {c : Char} (hc : ¬c.toNat ≤ 127) :
    ∀ b ∈ String.utf8EncodeChar c, 128 ≤ b.toNat := by
  intro b hb
  rw [String.utf8EncodeChar] at hb
  replace hc : ¬c.val.toNat ≤ 127 := hc
  simp only [hc, if_false] at hb
  split at hb
  · simp only [List.mem_cons, List.not_mem_nil, or_false] at hb
    rcases hb with rfl | rfl <;> rw [UInt8.toNat_ofNat'] <;> omega
  split at hb
  · simp only [List.mem_cons, List.not_mem_nil, or_false] at hb
    rcases hb with rfl | rfl | rfl <;> rw [UInt8.toNat_ofNat'] <;> omega
  · simp only [List.mem_cons, List.not_mem_nil, or_false] at hb
    rcases hb with rfl | rfl | rfl | rfl <;> rw [UInt8.toNat_ofNat'] <;> omega

/-! ## The bytes of a text -/

/-- The bytes of a text in UTF-8. -/
def encode (cs : List Char) : List UInt8 :=
  cs.flatMap String.utf8EncodeChar

theorem encode_append (cs ds : List Char) : encode (cs ++ ds) = encode cs ++ encode ds :=
  List.flatMap_append

theorem encode_eq_nil_iff {cs : List Char} : encode cs = [] ↔ cs = [] := by
  constructor
  · intro h
    cases cs with
    | nil => rfl
    | cons c cs =>
      have hc : (String.utf8EncodeChar c).length = 0 := by
        rw [(List.append_eq_nil_iff.mp h).1, List.length_nil]
      have hpos := c.utf8Size_pos
      rw [String.length_utf8EncodeChar] at hc
      omega
  · rintro rfl
    rfl

section Ascii

variable {a : Char} (ha : a.toNat ≤ 127)
include ha

theorem encode_ascii : encode [a] = [UInt8.ofNat a.toNat] := by
  rw [encode, List.flatMap_singleton, utf8EncodeChar_ascii ha]

/-- The byte of an ASCII character occurs in its own encoding only. -/
theorem mem_utf8EncodeChar_iff {c : Char} : UInt8.ofNat a.toNat ∈ String.utf8EncodeChar c ↔ c = a := by
  have hbyte : (UInt8.ofNat a.toNat).toNat = a.toNat := by rw [UInt8.toNat_ofNat']; omega
  constructor
  · intro h
    by_cases hc : c.toNat ≤ 127
    · rw [utf8EncodeChar_ascii hc, List.mem_singleton] at h
      have hbytes := congrArg UInt8.toNat h
      rw [hbyte, UInt8.toNat_ofNat'] at hbytes
      have hsame : c.toNat = a.toNat := by omega
      exact Char.toNat_inj.mp hsame
    · have hle := le_of_mem_utf8EncodeChar hc _ h
      omega
  · rintro rfl
    rw [utf8EncodeChar_ascii ha]
    exact List.mem_singleton_self _

theorem mem_encode_iff {cs : List Char} : UInt8.ofNat a.toNat ∈ encode cs ↔ a ∈ cs := by
  simp [encode, mem_utf8EncodeChar_iff ha]

theorem getLast?_encode_iff {cs : List Char} :
    (encode cs).getLast? = some (UInt8.ofNat a.toNat) ↔ cs.getLast? = some a := by
  obtain rfl | ⟨front, c, rfl⟩ := List.eq_nil_or_concat' cs
  · simp [encode]
  · have hne : encode [c] ≠ [] := by simp [encode_eq_nil_iff]
    rw [List.getLast?_concat, encode_append, List.getLast?_append_of_ne_nil _ hne, Option.some_inj]
    constructor
    · intro h
      have hmem := (mem_encode_iff ha).mp (List.mem_of_getLast? h)
      exact (List.mem_singleton.mp hmem).symm
    · rintro rfl
      rw [encode_ascii ha, List.getLast?_singleton]

/-- An encoded text is cut at a byte where the text is cut at the character. -/
theorem splitOn_encode (cs : List Char) :
    (encode cs).splitOn (UInt8.ofNat a.toNat) = (cs.splitOn a).map encode := by
  have hjoined : encode cs = [UInt8.ofNat a.toNat].intercalate ((cs.splitOn a).map encode) := by
    have hcs : [a].intercalate (cs.splitOn a) = cs := List.intercalate_splitOn a
    calc encode cs = encode ([a].intercalate (cs.splitOn a)) := by rw [hcs]
      _ = (encode [a]).intercalate ((cs.splitOn a).map encode) := flatMap_intercalate _ _ _
      _ = [UInt8.ofNat a.toNat].intercalate ((cs.splitOn a).map encode) := by rw [encode_ascii ha]
  rw [hjoined]
  apply List.splitOn_intercalate
  · intro l hl
    obtain ⟨piece, hpiece, rfl⟩ := List.mem_map.mp hl
    rw [mem_encode_iff ha]
    exact not_mem_of_mem_splitOn hpiece
  · simp [List.splitOn_ne_nil]

/-- The last character of a line is dropped before or after the encoding. -/
theorem dropReturn_encode (cs : List Char) :
    dropReturn (UInt8.ofNat a.toNat) (encode cs) = encode (dropReturn a cs) := by
  by_cases h : cs.getLast? = some a
  · obtain ⟨front, rfl⟩ := List.getLast?_eq_some_iff.mp h
    rw [encode_append, encode_ascii ha, dropReturn_concat, dropReturn_concat]
  · rw [dropReturn_of_ne h, dropReturn_of_ne]
    rwa [ne_eq, getLast?_encode_iff ha]

end Ascii

/-- **An encoded text has the encoded lines of the text.** -/
theorem lines_encode (cs : List Char) : lines 0x0A 0x0D (encode cs) = (lines '\n' '\r' cs).map encode := by
  obtain ⟨front, last, h⟩ := exists_splitOn_eq_concat '\n' cs
  have hbytes : (encode cs).splitOn 0x0A = front.map encode ++ [encode last] := by
    have hcut : (encode cs).splitOn 0x0A = (cs.splitOn '\n').map encode :=
      splitOn_encode (show '\n'.toNat ≤ 127 by decide) cs
    rw [hcut, h, List.map_append, List.map_singleton]
  have hreturns : (front.map encode).map (dropReturn 0x0D) = (front.map (dropReturn '\r')).map encode := by
    rw [List.map_map, List.map_map]
    apply List.map_congr_left
    intro l hl
    exact dropReturn_encode (show '\r'.toNat ≤ 127 by decide) l
  rw [lines_of_splitOn hbytes, lines_of_splitOn h, hreturns, List.map_append]
  congr 1
  by_cases hlast : last = []
  · simp [hlast, encode]
  · simp [hlast, encode_eq_nil_iff]

/-- Bytes whose pieces between line feeds are encoded texts are an encoded text. -/
theorem exists_encode_of_pieces {bytes : List UInt8} (h : ∀ l ∈ bytes.splitOn 0x0A, ∃ cs, encode cs = l) :
    ∃ cs, encode cs = bytes := by
  obtain ⟨texts, htexts⟩ : bytes.splitOn 0x0A ∈ Set.range (List.map encode) := by
    rw [Set.range_list_map]
    exact h
  have hnewline : encode ['\n'] = [0x0A] := encode_ascii (by decide)
  have hbytes : [0x0A].intercalate (bytes.splitOn 0x0A) = bytes := List.intercalate_splitOn 0x0A
  refine ⟨['\n'].intercalate texts, ?_⟩
  calc encode (['\n'].intercalate texts)
      = (encode ['\n']).intercalate (texts.map encode) := flatMap_intercalate _ _ _
    _ = [0x0A].intercalate (bytes.splitOn 0x0A) := by rw [hnewline, htexts]
    _ = bytes := hbytes

/-- The byte that belongs to a line end was a character of its own. -/
theorem exists_encode_of_dropReturn {l : List UInt8} (h : ∃ cs, encode cs = dropReturn 0x0D l) :
    ∃ cs, encode cs = l := by
  obtain ⟨cs, hcs⟩ := h
  by_cases hlast : l.getLast? = some 0x0D
  · obtain ⟨front, rfl⟩ := List.getLast?_eq_some_iff.mp hlast
    have hreturn : encode ['\r'] = [0x0D] := encode_ascii (by decide)
    rw [dropReturn_concat] at hcs
    exact ⟨cs ++ ['\r'], by rw [encode_append, hcs, hreturn]⟩
  · rw [dropReturn_of_ne hlast] at hcs
    exact ⟨cs, hcs⟩

/-- **Bytes whose lines are encoded texts are one encoded text.** -/
theorem exists_encode_of_lines {bytes : List UInt8} (h : ∀ l ∈ lines 0x0A 0x0D bytes, ∃ cs, encode cs = l) :
    ∃ cs, encode cs = bytes := by
  obtain ⟨front, last, hcut⟩ := exists_splitOn_eq_concat 0x0A bytes
  rw [lines_of_splitOn hcut] at h
  apply exists_encode_of_pieces
  intro l hl
  rw [hcut] at hl
  rcases List.mem_append.mp hl with hl | hl
  · exact exists_encode_of_dropReturn (h (dropReturn 0x0D l) (List.mem_append_left _ (List.mem_map_of_mem hl)))
  · obtain rfl := List.mem_singleton.mp hl
    by_cases hnil : l = []
    · exact ⟨[], hnil.symm⟩
    · exact h l (List.mem_append_right _ (by simp [hnil]))

/-! ## Decoding -/

/-- The bytes of a string are its characters' bytes. -/
theorem toList_data_toUTF8 (s : String) : s.toUTF8.data.toList = encode s.toList := by
  have hs : s.toUTF8 = (encode s.toList).toByteArray := by
    conv_lhs => rw [← String.ofList_toList (s := s)]
    rw [String.toUTF8_eq_toByteArray, String.toByteArray_ofList]
    rfl
  rw [hs, List.data_toByteArray]

/-- **A text is decoded from its own bytes and from no others.** -/
theorem decode?_eq_some_iff {bytes : List UInt8} {s : String} : decode? bytes = some s ↔ encode s.toList = bytes := by
  have hbytes : (⟨bytes.toArray⟩ : ByteArray) = s.toUTF8 ↔ encode s.toList = bytes := by
    rw [← toList_data_toUTF8]
    constructor
    · intro h
      rw [← h]
    · rintro rfl
      rfl
  rw [← hbytes, decode?, String.fromUTF8?, String.toUTF8_eq_toByteArray]
  constructor
  · intro h
    split at h
    · rw [← Option.some_inj.mp h]
      rfl
    · cases h
  · intro h
    rw [dif_pos (h ▸ s.isValidUTF8), Option.some_inj, ← String.toByteArray_inj]
    exact h

/-- All of a list is mapped, or nothing is. -/
theorem mapM_eq_some_iff {α β : Type} {f : α → Option β} {xs : List α} {ys : List β} :
    xs.mapM f = some ys ↔ xs.map f = ys.map some := by
  induction xs generalizing ys with
  | nil =>
    cases ys <;> simp
  | cons x xs ih =>
    rw [List.mapM_cons]
    cases ys with
    | nil => simp [Option.bind_eq_some_iff]
    | cons y ys => simp [Option.bind_eq_some_iff, ih]

/-- The bytes of a text are read like the text. -/
theorem readLines?_toUTF8 (s : String) : readLines? s.toUTF8 = some (trimmedLines s) := by
  rw [readLines?, mapM_eq_some_iff, toList_data_toUTF8, lines_encode, trimmedLines, List.map_map, List.map_map]
  apply List.map_congr_left
  intro l hl
  have hdecode : decode? (encode l) = some (String.ofList l) := by
    rw [decode?_eq_some_iff, String.toList_ofList]
  rw [Function.comp_apply, Function.comp_apply, hdecode, Option.map_some, trimmed, String.toList_ofList]

/-- The lines of bytes that are read are encoded texts. -/
theorem exists_encode_of_readLines? {bytes : ByteArray} {ls : List String} (h : readLines? bytes = some ls) :
    ∀ l ∈ lines 0x0A 0x0D bytes.data.toList, ∃ cs, encode cs = l := by
  intro l hl
  have hmem : (decode? l).map trimmed ∈ ls.map some := by
    rw [← mapM_eq_some_iff.mp h]
    exact List.mem_map_of_mem hl
  obtain ⟨t, ht, hline⟩ := List.mem_map.mp hmem
  obtain ⟨s, hs, hst⟩ := Option.map_eq_some_iff.mp hline.symm
  exact ⟨s.toList, decode?_eq_some_iff.mp hs⟩

/-- **A byte stream is read exactly if it is UTF-8 as a whole**, and then it is read like the text it encodes. -/
theorem readLines?_eq_some_iff {bytes : ByteArray} {ls : List String} :
    readLines? bytes = some ls ↔ ∃ s : String, s.toUTF8 = bytes ∧ ls = trimmedLines s := by
  constructor
  · intro h
    obtain ⟨cs, hcs⟩ := exists_encode_of_lines (exists_encode_of_readLines? h)
    have hbytes : (String.ofList cs).toUTF8 = bytes := by
      apply ByteArray.ext
      apply Array.toList_inj.mp
      rw [toList_data_toUTF8, String.toList_ofList, hcs]
    refine ⟨String.ofList cs, hbytes, ?_⟩
    rw [← hbytes, readLines?_toUTF8] at h
    exact (Option.some_inj.mp h).symm
  · rintro ⟨s, rfl, rfl⟩
    exact readLines?_toUTF8 s

end GrammarText.Text
