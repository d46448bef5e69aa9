/-
Texts with a length in front.

A name such as `6:player:1:1` writes the length in bytes before each part, so
that it can be read back although the parts contain any characters:

* `repr_append_inj` — the length ends at the first colon;
* `text_append_inj` — the part ends after that many bytes.
-/
import DbProxy.LuaNumber

namespace LengthPrefix

theorem repr_takeWhile {n : ℕ} (x : List Char) :
    ((Nat.repr n).toList ++ ':' :: x).takeWhile Char.isDigit = (Nat.repr n).toList := by
  have hdigits : ∀ c ∈ (Nat.repr n).toList, c.isDigit = true := by
    intro c hc
    rw [Nat.toList_repr] at hc
    exact Nat.isDigit_of_mem_toDigits (by decide) (by decide) hc
  rw [List.takeWhile_append_of_pos hdigits, List.takeWhile_cons_of_neg (by decide),
    List.append_nil]

/-- The length in front of a text ends at the first colon. -/
theorem repr_append_inj {a b : ℕ} {x y : List Char}
    (h : (Nat.repr a).toList ++ ':' :: x = (Nat.repr b).toList ++ ':' :: y) : a = b ∧ x = y := by
  have hlist : (Nat.repr a).toList = (Nat.repr b).toList := by
    rw [← repr_takeWhile x, h, repr_takeWhile y]
  rw [hlist, List.append_cancel_left_eq, List.cons.injEq] at h
  exact ⟨LuaNumber.repr_injective (String.ext hlist), h.2⟩

/-- Of two texts of equal length that start a common text, neither is longer. -/
theorem text_append_inj {a b : String} {x y : List Char} (hsize : a.utf8ByteSize = b.utf8ByteSize)
    (h : a.toList ++ x = b.toList ++ y) : a = b ∧ x = y := by
  have hempty : ∀ {s t : String} {c : List Char}, s.utf8ByteSize = t.utf8ByteSize →
      t.toList = s.toList ++ c → c = [] := by
    intro s t c hst hc
    have ht : t = s ++ String.ofList c := String.ext (by simp [hc])
    rw [ht, String.utf8ByteSize_append] at hst
    have hzero : (String.ofList c).utf8ByteSize = 0 := by omega
    rw [String.utf8ByteSize_eq_zero_iff] at hzero
    have := congrArg String.toList hzero
    simpa using this
  rcases List.append_eq_append_iff.mp h with ⟨c, hc, hxy⟩ | ⟨c, hc, hxy⟩
  · have hnil := hempty hsize hc
    rw [hnil, List.append_nil] at hc
    rw [hnil, List.nil_append] at hxy
    exact ⟨String.ext hc.symm, hxy⟩
  · have hnil := hempty hsize.symm hc
    rw [hnil, List.append_nil] at hc
    rw [hnil, List.nil_append] at hxy
    exact ⟨String.ext hc, hxy.symm⟩

end LengthPrefix
