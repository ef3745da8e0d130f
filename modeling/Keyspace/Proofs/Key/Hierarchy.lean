import Keyspace.Proofs.Key.Edit
import Keyspace.Proofs.Key.Relation
import Keyspace.Proofs.Name.Ancestors

namespace Keyspace.Key

/-- The key has a name, which was read from a text or made from such a name. -/
def IsNamed (key : Key) : Prop :=
  ∃ name, key.name = some name ∧ name.Reachable

section

variable {base check : Key} {baseName checkName : Name}

theorem hasBelow_of_names (hbase : base.name = some baseName)
    (hcheck : check.name = some checkName) :
    base.hasBelow check = .ok (baseName.hasBelow checkName) :=
  askNames_of_names _ hbase hcheck

theorem hasSameOrBelow_of_names (hbase : base.name = some baseName)
    (hcheck : check.name = some checkName) :
    base.hasSameOrBelow check = .ok (baseName.hasSameOrBelow checkName) :=
  askNames_of_names _ hbase hcheck

theorem space_of_name (hbase : base.name = some baseName) : base.space = .ok baseName.space := by
  rw [space, requireName, hbase]
  rfl

end

variable {a b c : Key}

theorem IsNamed.relation_eq_descendant_iff_child (ha : a.IsNamed) (hb : b.IsNamed) :
    a.relation b = .descendant ↔
      ∃ child : Key, child.IsNamed ∧ a.relation child = .directChild ∧
        child.hasBelow b = .ok true := by
  obtain ⟨x, hx, hxReachable⟩ := ha
  obtain ⟨y, hy, hyReachable⟩ := hb
  rw [relation_of_names hx hy, hxReachable.relation_eq_descendant_iff_child hyReachable]
  constructor
  · rintro ⟨name, hname, hdirect, hbelow⟩
    let child : Key := { name := some name }
    have hchild : child.name = some name := rfl
    refine ⟨child, ⟨name, hchild, hname⟩, ?_, ?_⟩
    · rw [relation_of_names hx hchild, hdirect]
    · rw [hasBelow_of_names hchild hy, hbelow]
  · rintro ⟨child, ⟨name, hchild, hname⟩, hdirect, hbelow⟩
    rw [relation_of_names hx hchild] at hdirect
    rw [hasBelow_of_names hchild hy] at hbelow
    exact ⟨name, hname, hdirect, Except.ok.inj hbelow⟩

/-- Lying below is a strict order, and two keys at or above a third one are comparable. -/
theorem hasBelow_forest (ha : a.IsNamed) (hb : b.IsNamed) (hc : c.IsNamed) :
    a.hasBelow a = .ok false ∧
    (a.hasBelow b = .ok true → b.hasBelow a = .ok false) ∧
    (a.hasBelow b = .ok true → b.hasBelow c = .ok true → a.hasBelow c = .ok true) ∧
    (a.hasSameOrBelow c = .ok true → b.hasSameOrBelow c = .ok true →
      a.name = b.name ∨ a.hasBelow b = .ok true ∨ b.hasBelow a = .ok true) ∧
    (a.hasSameOrBelow b = .ok true → b.hasSameOrBelow a = .ok true → a.name = b.name) ∧
    (a.relation b = .descendant ↔
      ∃ child : Key, child.IsNamed ∧ a.relation child = .directChild ∧
        child.hasBelow b = .ok true) ∧
    (a.hasSameOrBelow b = .ok true → ∃ space, a.space = .ok space ∧ b.space = .ok space) := by
  have hdescendant := ha.relation_eq_descendant_iff_child hb
  obtain ⟨x, hx, hxReachable⟩ := ha
  obtain ⟨y, hy, hyReachable⟩ := hb
  obtain ⟨z, hz, hzReachable⟩ := hc
  simp only [hasBelow_of_names hx hx, hasBelow_of_names hx hy, hasBelow_of_names hy hx,
    hasBelow_of_names hy hz, hasBelow_of_names hx hz, hasSameOrBelow_of_names hx hy,
    hasSameOrBelow_of_names hy hx, hasSameOrBelow_of_names hx hz, hasSameOrBelow_of_names hy hz,
    hx, hy, Except.ok.injEq, Option.some.injEq]
  refine ⟨x.hasBelow_irrefl, Name.hasBelow_asymm, Name.hasBelow_trans,
    hxReachable.comparable hyReachable hzReachable,
    hxReachable.hasSameOrBelow_antisymm hyReachable, hdescendant, ?_⟩
  intro hsame
  refine ⟨x.space, space_of_name hx, ?_⟩
  rw [hxReachable.space_of_sameOrBelow hyReachable hsame]
  exact space_of_name hy

theorem forest_of_owned_key :
    let a : Key := { name := some ⟨"user:me", ["user:me"]⟩ }
    let b : Key := { name := some ⟨"user:me/a\\/b", ["user:me", "a/b"]⟩ }
    let c : Key := { name := some ⟨"user:me/a\\/b/..x", ["user:me", "a/b", "..x"]⟩ }
    a.IsNamed ∧ b.IsNamed ∧ c.IsNamed ∧ a.hasBelow b = .ok true ∧ b.hasBelow c = .ok true ∧
      a.hasBelow c = .ok true ∧ b.hasBelow a = .ok false ∧
      ∃ space, a.space = .ok space ∧ b.space = .ok space := by
  intro a b c
  have hread : Name.parse "user:me/./" = .ok ⟨"user:me", ["user:me"]⟩ := by decide +kernel
  have hnext : Name.parse "user:me//x/../a\\/b" =
      .ok ⟨"user:me/a\\/b", ["user:me", "a/b"]⟩ := by
    decide +kernel
  have hjoin : Name.join ⟨"user:me/a\\/b", ["user:me", "a/b"]⟩ "..x" =
      .ok ⟨"user:me/a\\/b/..x", ["user:me", "a/b", "..x"]⟩ := by
    decide +kernel
  have ha : a.IsNamed := ⟨_, rfl, .parse hread⟩
  have hb : b.IsNamed := ⟨_, rfl, .parse hnext⟩
  have hc : c.IsNamed := ⟨_, rfl, .join (.parse hnext) hjoin⟩
  have hab : a.hasBelow b = .ok true := by decide +kernel
  have hbc : b.hasBelow c = .ok true := by decide +kernel
  have hsame : a.hasSameOrBelow b = .ok true := by decide +kernel
  obtain ⟨-, hasymm, htrans, -, -, -, hspace⟩ := hasBelow_forest ha hb hc
  exact ⟨ha, hb, hc, hab, hbc, htrans hab hbc, hasymm hab, hspace hsame⟩

theorem NameReachable.space_addBaseName {key : Key} (h : key.NameReachable) (segment : String) :
    (key.after (.addBaseName segment)).space = key.space := by
  cases hchange : (key.apply (.addBaseName segment)).outcome with
  | error error => rw [after_of_error hchange]
  | ok changed =>
    rw [after_of_ok hchange]
    obtain ⟨name, joined, hname, hjoin, rfl⟩ := addBaseName_eq_ok_iff.1 hchange
    rw [space_of_name hname, ← (h name hname).space_of_join hjoin]
    exact space_of_name rfl

/-- A text read as a root alone names a key that every longer text leads to or below. -/
theorem hasSameOrBelow_root {root more : String} {rootName name : Name}
    (hne : root ≠ "") (hroot : Name.firstPiece root = root.toList)
    (hread : Name.parse root = .ok rootName) (h : Name.parse (root ++ "/" ++ more) = .ok name)
    (hbase : b.name = some rootName) (hcheck : c.name = some name) :
    b.hasSameOrBelow c = .ok true ∧ b.space = c.space := by
  obtain ⟨found, segment, hfound, hsegment, hsingle, hbegin⟩ :=
    Name.parse_root_of_paired hne hroot (Name.paired_of_parse hread) h
  obtain rfl := Except.ok.inj (hfound.symm.trans hread)
  have hreachable := Name.Reachable.parse hread
  have hbelow : found.hasSameOrBelow name = true := by
    refine (hreachable.hasSameOrBelow_iff (.parse h)).2 ⟨hbegin, fun hbare => ?_⟩
    rw [hreachable.escaped_eq_separator_iff, hsingle] at hbare
    exact absurd (List.singleton_inj.1 hbare) hsegment
  rw [hasSameOrBelow_of_names hbase hcheck, hbelow, space_of_name hbase, space_of_name hcheck,
    hreachable.space_of_sameOrBelow (.parse h) hbelow]
  exact ⟨rfl, rfl⟩

/-- What stands behind the root of a text leads neither out of its namespace nor above the root. -/
theorem space_confined {text : String} {name : Name} (h : Name.parse text = .ok name) :
    (text.toList.head? = some separator →
      name.segments.head? = some "" ∧ name.space = .cascading) ∧
    (text.toList.head? ≠ some separator →
      name.segments.head? = some (unescapeText (Name.firstPiece text))) ∧
    (∀ more longer, Name.parse (text ++ "/" ++ more) = .ok longer →
      longer.segments.head? = name.segments.head? ∧ longer.space = name.space) ∧
    (∀ root more, root ≠ "" → Name.firstPiece root = root.toList → text = root ++ "/" ++ more →
      ((∃ rootName, Name.parse root = .ok rootName) ↔ EscapesPaired root.toList) ∧
      ∀ rootName, Name.parse root = .ok rootName →
        ∀ base check : Key, base.name = some rootName → check.name = some name →
          base.hasSameOrBelow check = .ok true ∧ base.space = check.space) ∧
    (∀ base : Name, base.Reachable → ∀ segment joined,
      base.join segment = .ok joined → joined.space = base.space) ∧
    (∀ key : Key, key.NameReachable → ∀ segment,
      (key.after (.addBaseName segment)).space = key.space) ∧
    Namespace.ofRoot (String.ofList (Name.firstPiece text)) = name.space ∧
    (∀ root, Namespace.ofRoot (escapeText root) = Namespace.ofRoot root) ∧
    (∀ root space, Namespace.ofRoot root = space ↔
      Namespace.Selects root space ∨
        space = .cascading ∧ ∀ other, ¬Namespace.Selects root other) := by
  have hhead := Name.head_segments_of_parse h
  have hspace := Name.ofRoot_firstPiece h
  refine ⟨?_, fun _ => hhead, ?_, ?_, fun _ hbase _ _ => hbase.space_of_join,
    fun _ hkey => hkey.space_addBaseName, hspace, Namespace.ofRoot_escapeText,
    fun _ _ => Namespace.ofRoot_eq_iff⟩
  · intro hseparator
    rw [Name.firstPiece_of_separator hseparator] at hhead hspace
    exact ⟨hhead, hspace.symm⟩
  · intro more longer hlonger
    have hpiece := Name.firstPiece_append (Name.paired_of_parse h) more
    rw [Name.head_segments_of_parse hlonger, ← Name.ofRoot_firstPiece hlonger, hpiece]
    exact ⟨hhead.symm, hspace⟩
  · rintro root more hne hroot rfl
    refine ⟨⟨?_, ?_⟩, ?_⟩
    · rintro ⟨rootName, hread⟩
      exact Name.paired_of_parse hread
    · intro hpaired
      obtain ⟨rootName, -, hread, -⟩ := Name.parse_root_of_paired hne hroot hpaired h
      exact ⟨rootName, hread⟩
    · intro rootName hread base check hbase hcheck
      exact hasSameOrBelow_root hne hroot hread h hbase hcheck

theorem confined_past_parents :
    let name : Name := ⟨"user:a\\/b/c", ["user:a/b", "c"]⟩
    let base : Key := { name := some ⟨"user:a\\/b", ["user:a/b"]⟩ }
    let check : Key := { name := some name }
    Name.parse ("user:a\\/b" ++ "/" ++ "x/../../..//./c") = .ok name ∧
      base.hasSameOrBelow check = .ok true ∧ base.space = check.space := by
  intro name base check
  have hread : Name.parse ("user:a\\/b" ++ "/" ++ "x/../../..//./c") = .ok name := by
    decide +kernel
  have hroot : Name.parse "user:a\\/b" = .ok ⟨"user:a\\/b", ["user:a/b"]⟩ := by decide +kernel
  obtain ⟨-, -, -, hconfined, -⟩ := space_confined hread
  have hpiece : Name.firstPiece "user:a\\/b" = "user:a\\/b".toList := by decide +kernel
  obtain ⟨-, hbelow⟩ := hconfined "user:a\\/b" "x/../../..//./c" (by decide) hpiece rfl
  exact ⟨hread, hbelow _ hroot base check rfl rfl⟩

/-- A lone escape is read in front of a separator, and refused where nothing follows it. -/
theorem not_parse_open_root :
    "\\" ≠ "" ∧ Name.firstPiece "\\" = "\\".toList ∧
      Name.parse ("\\" ++ "/" ++ "x") = .ok ⟨"\\/x", ["/x"]⟩ ∧
      ¬∃ rootName, Name.parse "\\" = .ok rootName := by
  have hrefused : Name.parse "\\" = .error (.invalidName "\\" .danglingEscape) := by
    decide +kernel
  refine ⟨by decide, by decide +kernel, by decide +kernel, ?_⟩
  rintro ⟨rootName, hread⟩
  rw [hrefused] at hread
  cases hread

end Keyspace.Key
