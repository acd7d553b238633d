/-
`ConnectionStringParser::ParseConfigAttributes`: the attributes of an installer,
each ended by a NUL, with one more NUL behind them.

The list is measured first, up to the first two NULs in a row, and then handed
to the parser of connection strings with the NUL as its delimiter. The parser
strips the NULs at the end, so the last segment loses its own NUL only.
-/
import DocumentDbOdbc.ConnectionStringFacts

namespace DocumentDbOdbc

namespace ConnectionStringParser

variable {H : Host}

/-- The first place with two NULs in a row; without one the loop runs on past the text. -/
def doubleNul : Str → Option Nat
  | a :: b :: str => if a = 0 ∧ b = 0 then some 0 else (doubleNul (b :: str)).map (· + 1)
  | _ => none

/-- `ParseConfigAttributes(str, diag)`, of the bytes from `str` on. -/
def parseConfigAttributes (c : Configuration H) (str : Str) : Option (Parsed H) :=
  (doubleNul str).map fun len => parse 0 c (str.take (len + 1))

/-- Segments, each with its NUL. -/
def terminated (segments : List Str) : Str := segments.flatMap (· ++ [0])

theorem terminated_cons (s : Str) (segments : List Str) :
    terminated (s :: segments) = s ++ 0 :: terminated segments := by
  simp [terminated]

/-- A segment of a list of attributes. -/
def IsAttribute (s : Str) : Prop := s ≠ [] ∧ 59 ∉ s ∧ 0 ∉ s

theorem doubleNul_cons_of_ne {a : UInt8} (h : a ≠ 0) {str : Str} (hne : str ≠ []) :
    doubleNul (a :: str) = (doubleNul str).map (· + 1) := by
  obtain ⟨b, rest, rfl⟩ := List.exists_cons_of_ne_nil hne
  rw [doubleNul, if_neg fun hab => h hab.1]

/-- The search skips what has no NUL. -/
theorem doubleNul_append {s : Str} (h : 0 ∉ s) {str : Str} (hne : str ≠ []) :
    doubleNul (s ++ str) = (doubleNul str).map (· + s.length) := by
  induction s with
  | nil => simp
  | cons a s ih =>
    rw [List.mem_cons, not_or] at h
    rw [List.cons_append, doubleNul_cons_of_ne (Ne.symm h.1) (by simp [hne]), ih h.2, Option.map_map]
    rfl

/-- The list ends before its last NUL. -/
theorem doubleNul_terminated {segments : List Str} (hne : segments ≠ []) (h : ∀ s ∈ segments, IsAttribute s) :
    ∃ len, doubleNul (terminated segments ++ [0]) = some len ∧ len + 1 = (terminated segments).length := by
  induction segments with
  | nil => exact absurd rfl hne
  | cons s segments ih =>
    obtain ⟨-, -, hnul⟩ := h s (by simp)
    rw [terminated_cons, List.append_assoc, List.cons_append, doubleNul_append hnul (by simp)]
    cases segments with
    | nil => exact ⟨s.length, by simp [terminated, doubleNul], by simp [terminated]⟩
    | cons t segments =>
      obtain ⟨len, hlen, hlength⟩ := ih (by simp) fun u hu => h u (by simp [hu])
      obtain ⟨htne, -, htnul⟩ := h t (by simp)
      obtain ⟨b, t, rfl⟩ := List.exists_cons_of_ne_nil htne
      rw [List.mem_cons, not_or] at htnul
      have hstep : doubleNul (0 :: (terminated ((b :: t) :: segments) ++ [0])) = some (len + 1) := by
        rw [terminated_cons, List.cons_append, List.cons_append, doubleNul, if_neg fun hab => htnul.1 hab.2.symm,
          ← List.cons_append, ← List.cons_append, ← terminated_cons, hlen]
        rfl
      refine ⟨len + 1 + s.length, by rw [hstep]; rfl, ?_⟩
      rw [List.length_append, List.length_cons, ← hlength]
      omega

theorem terminated_eq_intercalate {segments : List Str} (hne : segments ≠ []) :
    terminated segments = [0].intercalate segments ++ [0] := by
  induction segments with
  | nil => exact absurd rfl hne
  | cons s segments ih =>
    cases segments with
    | nil => simp [terminated]
    | cons t segments =>
      rw [terminated_cons, ih (by simp), List.intercalate_cons_cons]
      simp

theorem getLast?_joined {segments : List Str} (hne : segments ≠ []) (h : ∀ s ∈ segments, IsAttribute s) :
    ∃ x, ([0].intercalate segments).getLast? = some x ∧ x ≠ 0 := by
  induction segments with
  | nil => exact absurd rfl hne
  | cons s segments ih =>
    cases segments with
    | nil =>
      obtain ⟨hs, -, hnul⟩ := h s (by simp)
      refine ⟨s.getLast hs, by simp [List.getLast?_eq_some_getLast hs], fun hz => ?_⟩
      exact hnul (hz ▸ List.getLast_mem hs)
    | cons t segments =>
      obtain ⟨x, hx, hxne⟩ := ih (by simp) fun u hu => h u (by simp [hu])
      refine ⟨x, ?_, hxne⟩
      rw [List.intercalate_cons_cons, List.getLast?_append, hx]
      rfl

/-- The parser strips the NUL of the last segment and no more. -/
theorem rdropWhile_terminated {segments : List Str} (hne : segments ≠ []) (h : ∀ s ∈ segments, IsAttribute s) :
    (terminated segments).rdropWhile (· == 0) = [0].intercalate segments := by
  obtain ⟨x, hx, hxne⟩ := getLast?_joined hne h
  rw [terminated_eq_intercalate hne, List.rdropWhile_concat_pos _ _ _ (by rfl), List.rdropWhile_eq_self_iff]
  intro hjoined hz
  rw [List.getLast?_eq_some_getLast hjoined, Option.some.injEq] at hx
  exact hxne (hx ▸ beq_iff_eq.mp hz)

theorem parse_joined_eq {d : UInt8} {str : Str} {segments : List Str} (hne : segments ≠ [])
    (hstrip : str.rdropWhile (· == 0) = [d].intercalate segments) (h : ∀ s ∈ segments, d ∉ s) (c : Configuration H) :
    parse d c str = segments.reverse.foldl handleSegment (c, []) := by
  rw [parse_eq_foldl, hstrip, List.splitOn_intercalate d h hne]

/-- **The two syntaxes agree.** -/
theorem parseConfigAttributes_eq (c : Configuration H) {segments : List Str} (hne : segments ≠ [])
    (h : ∀ s ∈ segments, IsAttribute s) :
    parseConfigAttributes c (terminated segments ++ [0]) =
      some (parseConnectionString c ([59].intercalate segments)) := by
  obtain ⟨len, hlen, hlength⟩ := doubleNul_terminated hne h
  have hjoined : (0 : UInt8) ∉ [59].intercalate segments :=
    Separated.not_mem_intercalate (by decide) fun s hs => (h s hs).2.2
  rw [parseConfigAttributes, hlen, Option.map_some, hlength, List.take_left,
    parse_joined_eq hne (rdropWhile_terminated hne h) (fun s hs => (h s hs).2.2), parseConnectionString,
    parse_joined_eq hne (rdropWhile_nul hjoined) fun s hs => (h s hs).2.1]

theorem parseConfigAttributes_eq_two :
    parseConfigAttributes (.fresh .diskless) (terminated [ascii "DSN={a}", ascii "port=x"] ++ [0]) =
      some (parseConnectionString (.fresh .diskless) ([59].intercalate [ascii "DSN={a}", ascii "port=x"])) :=
  parseConfigAttributes_eq (.fresh .diskless) (by decide) (by simp only [IsAttribute]; decide)

end ConnectionStringParser

end DocumentDbOdbc
