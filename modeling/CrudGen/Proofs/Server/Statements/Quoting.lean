import CrudGen.Proofs.Sql.Chunks
import CrudGen.Server.Statements

/-!
# Statements — where quoted names end

A name in a statement stands between double quotes, and every quote inside is doubled. The reader of
scripts looks one character beyond a quote. So it reads such a name as it is, whatever the name has
in it, and goes on right behind it, unless one more quote stands there.

Main results:

* `scan_enclosed` — a quoted name is one token, and what follows is read as if it stood alone.
* `quoteName_unbroken` — when this is so, and that quoted names differ if the names do.
-/

namespace CrudGen.Sql

open Lexer Text

variable {mark : Char} {rest : List Char}

/-- A mark behind a quoted name belongs to the name, and so does what stands behind that mark. -/
theorem quoted_doubled_mark (mark : Char) (cs more : List Char) :
    (quoted mark (doubled mark cs ++ mark :: mark :: more)).1 =
      cs ++ mark :: (quoted mark more).1 := by
  induction cs with
  | nil =>
    rw [doubled, List.nil_append, quoted.eq_def]
    simp
  | cons c cs ih =>
    rw [doubled]
    split
    · rename_i hc
      subst hc
      rw [List.cons_append, List.cons_append, quoted.eq_def]
      simp [ih]
    · rename_i hc
      rw [List.cons_append, quoted_cons hc]
      exact congrArg (c :: ·) ih

/-- What is read of a text that starts with a quoted name: the name comes first, with more in it if
one more mark follows. -/
theorem scan_enclosed (hmark : mark = '"' ∨ mark = '`') (name : String)
    (hrest : rest.head? ≠ some mark) :
    let size := byteLength (enclosed mark name).toList
    scan 0 ((enclosed mark name).toList ++ rest) =
      ⟨.ident name, 0, size⟩ :: (scan 0 rest).map (Located.later size) := by
  obtain ⟨htext, hnext⟩ := next_enclosed hmark name hrest
  -- the text of the name is what the lexer takes, and `rest` is what it leaves
  have hname : (enclosed mark name).toList =
      mark :: (doubled mark name.toList ++ mark :: rest).take
        ((doubled mark name.toList).length + 1) := by
    rw [List.take_append, List.take_of_length_le (Nat.le_succ _), Nat.add_sub_cancel_left]
    simp [enclosed]
  have hleft : (doubled mark name.toList ++ mark :: rest).drop
      ((doubled mark name.toList).length + 1) = rest := by
    simp [List.drop_append]
  intro size
  have hlater := scan_later size 0 rest
  rw [htext, scan_cons, hnext]
  dsimp only
  rw [hleft, ← hname, Nat.zero_add, ← hlater, Nat.add_zero]
  rfl

/-- The token that a text starts with, if it starts with a quoted name and one more mark. -/
theorem head?_scan_open (name : String) (more : List Char) :
    ∃ text, (scan 0 ((quoteName name).toList ++ '"' :: more)).head?.map (·.token) =
      some (.ident text) ∧ text ≠ name := by
  have htext : (quoteName name).toList ++ '"' :: more =
      '"' :: (doubled '"' name.toList ++ '"' :: '"' :: more) := by
    simp [quoteName, enclosed]
  refine ⟨String.ofList (name.toList ++ '"' :: (quoted '"' more).1), ?_, fun hsame => ?_⟩
  · have hnext (cs : List Char) : (next '"' cs).1 =
        some (.ident (String.ofList (quoted '"' cs).1)) := rfl
    rw [htext, scan_cons, hnext, quoted_doubled_mark]
    rfl
  · have hlength := congrArg String.length hsame
    simp at hlength

/-- **Quoted names.** A quoted name with some text behind it is read as that name and then what the
text is read as alone, all standing as far behind as the quoted name is long, exactly if the text
does not start with one more quote. So no name can be mistaken for another one. -/
theorem quoteName_unbroken :
    (∀ name text : String,
      tokenize (quoteName name ++ text) =
          ⟨.ident name, 0, (quoteName name).utf8ByteSize⟩ ::
            (tokenize text).map (.later (quoteName name).utf8ByteSize) ↔
        text.toList.head? ≠ some '"') ∧
    Function.Injective quoteName := by
  have hread (name text : String) (htext : text.toList.head? ≠ some '"') :
      tokenize (quoteName name ++ text) = ⟨.ident name, 0, (quoteName name).utf8ByteSize⟩ ::
        (tokenize text).map (.later (quoteName name).utf8ByteSize) := by
    rw [tokenize, tokenize, String.toList_append, ← byteLength_toList]
    exact scan_enclosed (.inl rfl) name htext
  refine ⟨fun name text => ⟨fun hsame hquote => ?_, hread name text⟩, fun name name' hsame => ?_⟩
  · -- one more quote makes the name longer
    obtain ⟨more, hmore⟩ : ∃ more, text.toList = '"' :: more := by
      cases hcs : text.toList with
      | nil => rw [hcs] at hquote; cases hquote
      | cons c more =>
        rw [hcs] at hquote
        exact ⟨more, by rw [Option.some_inj.1 hquote]⟩
    obtain ⟨longer, hlonger, hne⟩ := head?_scan_open name more
    rw [← hmore, ← String.toList_append] at hlonger
    rw [tokenize] at hsame
    rw [hsame] at hlonger
    exact hne (Token.ident.inj (Option.some_inj.1 hlonger)).symm
  · have hname := hread name "" (by decide)
    rw [hsame, hread name' "" (by decide)] at hname
    simpa using (congrArg List.head? hname).symm

end CrudGen.Sql
