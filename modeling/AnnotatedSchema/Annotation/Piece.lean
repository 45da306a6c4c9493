import AnnotatedSchema.Text.Blank
import AnnotatedSchema.Text.Quoted

/-!
The pieces of an annotation: words, quoted literals and groups in round brackets. Pieces are
separated by blanks, and a bracket starts a piece of its own, so `CHECK(a > 0)` has two.
-/

namespace AnnotatedSchema

inductive Piece.Kind where
  | word
  | quoted
  | group
  deriving DecidableEq, Repr

/-- A piece has its exact text, brackets and quotes included, and the byte offset where that text
starts. -/
structure Piece where
  kind : Piece.Kind
  text : Text
  start : Nat
  deriving DecidableEq, Repr

/-- Why a text cannot be cut into pieces. -/
inductive ScanFault.Cause where
  | unterminatedQuote
  | unbalancedParentheses
  deriving DecidableEq, Repr

/-- A fault is reported at the byte offset of the quote or bracket that is never closed. -/
structure ScanFault where
  cause : ScanFault.Cause
  offset : Nat
  deriving DecidableEq, Repr

def ScanFault.Cause.message : ScanFault.Cause → Text
  | unterminatedQuote => "unterminated quoted literal"
  | unbalancedParentheses => "unbalanced parentheses"

namespace Piece

/-- The byte offset just after the piece. -/
def stop (p : Piece) : Nat := p.start + p.text.utf8Size

/-- Whether the piece is the given word, in any case of its letters. -/
def isWord (p : Piece) (word : Text) : Bool := p.kind == .word && p.text.sameKeyword word

/-- What a group has between its brackets, without the blanks at both ends. -/
def groupBody? (p : Piece) : Option Text :=
  match p.kind, p.text with
  | .group, '(' :: t => (List.isSuffixOf? [')'] t).map Text.trim
  | _, _ => none

/-- Splits a text after the quote that closes a literal in quotes `q`, the opening quote of which
has been read. A doubled quote does not close it. -/
def closeQuote? (q : Char) : Text → Option (Text × Text)
  | [] => none
  | c :: t =>
    if c = q then
      match t with
      | [] => some ([c], [])
      | d :: u =>
        if d = q then (closeQuote? q u).map fun (body, rest) => (c :: d :: body, rest)
        else some ([c], d :: u)
    else (closeQuote? q t).map fun (body, rest) => (c :: body, rest)

theorem closeQuote?_eq_append {q : Char} {t body rest : Text}
    (h : closeQuote? q t = some (body, rest)) : t = body ++ rest := by
  fun_induction closeQuote? q t generalizing body rest <;> simp_all <;> grind

theorem length_of_closeQuote? {q : Char} {t body rest : Text}
    (h : closeQuote? q t = some (body, rest)) : rest.length ≤ t.length := by
  simp [closeQuote?_eq_append h]

/-- How many brackets inside a group are open after the character `c`. -/
def depthAfter (c : Char) (depth : Nat) : Nat :=
  if c = '(' then depth + 1 else if c = ')' then depth - 1 else depth

/-- Splits a text after the bracket that closes a group. The group starts at byte `start`, the text
goes on at byte `offset`, and `depth` brackets inside the group are still open. Brackets inside
quotes do not count. -/
def closeGroup (start offset depth : Nat) (t : Text) : Except ScanFault (Text × Text) :=
  match t with
  | [] => .error ⟨.unbalancedParentheses, start⟩
  | c :: t =>
    if isQuote c then
      match _h : closeQuote? c t with
      | none => .error ⟨.unterminatedQuote, offset⟩
      | some (literal, rest) =>
        (closeGroup start (offset + c.utf8Size + literal.utf8Size) depth rest).map
          fun (body, rest) => (c :: literal ++ body, rest)
    else if c = ')' ∧ depth = 0 then .ok ([c], t)
    else
      (closeGroup start (offset + c.utf8Size) (depthAfter c depth) t).map
        fun (body, rest) => (c :: body, rest)
termination_by t.length
decreasing_by
  · have := length_of_closeQuote? _h
    simp; omega
  · simp

/-- The characters of a word. -/
def inWord (c : Char) : Bool := !isBlank c && c != '('

/-- Splits a text, which starts at byte `offset` with `c` and goes on with `t`, after its first
piece. The character `c` is no blank. -/
def first (offset : Nat) (c : Char) (t : Text) : Except ScanFault (Piece × Text) :=
  if c = '(' then
    (closeGroup offset (offset + c.utf8Size) 0 t).map
      fun (body, rest) => (⟨.group, c :: body, offset⟩, rest)
  else if isQuote c then
    match closeQuote? c t with
    | none => .error ⟨.unterminatedQuote, offset⟩
    | some (body, rest) => .ok (⟨.quoted, c :: body, offset⟩, rest)
  else .ok (⟨.word, c :: t.takeWhile inWord, offset⟩, t.dropWhile inWord)

theorem closeGroup_eq_append {start offset depth : Nat} {t body rest : Text}
    (h : closeGroup start offset depth t = .ok (body, rest)) : t = body ++ rest := by
  fun_induction closeGroup start offset depth t generalizing body rest with
  | case1 => simp at h
  | case2 => simp at h
  | case3 offset depth c t _ literal tail hq ih =>
    simp only [Except.map] at h
    split at h
    · simp at h
    · rename_i v hv
      have hv : t = literal ++ (v.1 ++ v.2) := by rw [closeQuote?_eq_append hq, ← ih hv]
      simp only [Except.ok.injEq, Prod.mk.injEq] at h
      simp [hv, ← h.1, ← h.2]
  | case4 => simp at h; simp [← h.1, ← h.2]
  | case5 offset depth c t _ _ ih =>
    simp only [Except.map] at h
    split at h
    · simp at h
    · rename_i v hv
      simp only [Except.ok.injEq, Prod.mk.injEq] at h
      simp [ih hv, ← h.1, ← h.2]

theorem length_of_first {offset : Nat} {c : Char} {t rest : Text} {p : Piece}
    (h : first offset c t = .ok (p, rest)) : rest.length ≤ t.length := by
  unfold first at h
  split at h
  · cases hg : closeGroup offset (offset + c.utf8Size) 0 t with
    | error e => simp [hg, Except.map] at h
    | ok q =>
      simp only [hg, Except.map, Except.ok.injEq, Prod.mk.injEq] at h
      simp [closeGroup_eq_append hg, ← h.2]
  · split at h
    · split at h
      · simp at h
      · rename_i hq
        simp only [Except.ok.injEq, Prod.mk.injEq] at h
        simp [closeQuote?_eq_append hq, ← h.2]
    · simp only [Except.ok.injEq, Prod.mk.injEq] at h
      rw [← h.2]
      exact (List.dropWhile_sublist _).length_le

/-- The pieces of a text that starts at byte `offset`, up to the first fault if there is one. -/
def scanFrom (offset : Nat) (t : Text) : List Piece × Option ScanFault :=
  match t with
  | [] => ([], none)
  | c :: t =>
    if isBlank c then scanFrom (offset + c.utf8Size) t
    else
      match _h : first offset c t with
      | .error fault => ([], some fault)
      | .ok (piece, rest) =>
        let (pieces, fault) := scanFrom piece.stop rest
        (piece :: pieces, fault)
termination_by t.length
decreasing_by
  · simp
  · have := length_of_first _h
    simp; omega

def scan (t : Text) : Except ScanFault (List Piece) :=
  match scanFrom 0 t with
  | (pieces, none) => .ok pieces
  | (_, some fault) => .error fault

end Piece

end AnnotatedSchema
