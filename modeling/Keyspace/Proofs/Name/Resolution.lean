import Keyspace.Proofs.Name.Spelling

namespace Keyspace.Piece

/-- Follows one piece from the levels kept so far, the root-most one first. -/
def settle (kept : List Piece) (piece : Piece) : List Piece :=
  if piece = self then kept
  else if piece = parent then kept.dropLast
  else kept ++ [piece]

theorem reverse_follow (kept : List Piece) (piece : Piece) :
    (follow kept piece).reverse = settle kept.reverse piece := by
  unfold follow settle
  split
  · rfl
  · split
    · exact List.dropLast_reverse.symm
    · exact List.reverse_cons

theorem reverse_foldl_follow (kept below : List Piece) :
    (below.foldl follow kept).reverse = below.foldl settle kept.reverse := by
  induction below generalizing kept with
  | nil => rfl
  | cons piece below ih => rw [List.foldl_cons, List.foldl_cons, ih, reverse_follow]

theorem resolve_eq_foldl_settle (below : List Piece) : resolve below = below.foldl settle [] :=
  reverse_foldl_follow [] below

theorem settle_level {piece : Piece} (hself : piece ≠ self) (hparent : piece ≠ parent)
    (kept : List Piece) : settle kept piece = kept ++ [piece] := by
  rw [settle, if_neg hself, if_neg hparent]

theorem mem_foldl_settle {piece : Piece} {kept below : List Piece}
    (h : piece ∈ below.foldl settle kept) :
    piece ∈ kept ∨ piece ∈ below ∧ piece ≠ self ∧ piece ≠ parent := by
  induction below generalizing kept with
  | nil => exact .inl h
  | cons next below ih =>
    rcases ih h with hkept | ⟨hbelow, hlevel⟩
    · unfold settle at hkept
      split at hkept
      · exact .inl hkept
      · split at hkept
        · exact .inl ((List.dropLast_subset kept) hkept)
        · rename_i hself hparent
          rcases List.mem_append.1 hkept with hkept | hnext
          · exact .inl hkept
          · rw [List.mem_singleton.1 hnext]
            exact .inr ⟨List.mem_cons_self, hself, hparent⟩
    · exact .inr ⟨List.mem_cons_of_mem _ hbelow, hlevel⟩

theorem mem_resolve {piece : Piece} {below : List Piece} (h : piece ∈ resolve below) :
    piece ∈ below ∧ piece ≠ self ∧ piece ≠ parent := by
  rw [resolve_eq_foldl_settle] at h
  rcases mem_foldl_settle h with hnil | hbelow
  · cases hnil
  · exact hbelow

theorem foldl_settle_levels {below : List Piece}
    (h : ∀ piece ∈ below, piece ≠ self ∧ piece ≠ parent) (kept : List Piece) :
    below.foldl settle kept = kept ++ below := by
  induction below generalizing kept with
  | nil => exact (List.append_nil kept).symm
  | cons piece below ih =>
    obtain ⟨hself, hparent⟩ := h piece List.mem_cons_self
    rw [List.foldl_cons, settle_level hself hparent,
      ih fun piece hpiece => h piece (List.mem_cons_of_mem _ hpiece), List.append_assoc]
    rfl

theorem resolve_levels {below : List Piece}
    (h : ∀ piece ∈ below, piece ≠ self ∧ piece ≠ parent) : resolve below = below := by
  rw [resolve_eq_foldl_settle, foldl_settle_levels h, List.nil_append]

theorem escapeSegment_eq_self_iff {raw : List Char} : escapeSegment raw = self ↔ raw = self :=
  ⟨fun h => escapeSegment_injective (h.trans (by decide)), fun h => by rw [h]; decide⟩

theorem escapeSegment_eq_parent_iff {raw : List Char} :
    escapeSegment raw = parent ↔ raw = parent :=
  ⟨fun h => escapeSegment_injective (h.trans (by decide)), fun h => by rw [h]; decide⟩

theorem settle_escapeSegment (kept : List Piece) (raw : List Char) :
    settle (kept.map escapeSegment) (escapeSegment raw) = (settle kept raw).map escapeSegment := by
  simp only [settle, escapeSegment_eq_self_iff, escapeSegment_eq_parent_iff]
  split
  · rfl
  · split
    · exact List.map_dropLast.symm
    · rw [List.map_append, List.map_singleton]

theorem foldl_settle_escapeSegment (kept below : List Piece) :
    (below.map escapeSegment).foldl settle (kept.map escapeSegment) =
      (below.foldl settle kept).map escapeSegment := by
  induction below generalizing kept with
  | nil => rfl
  | cons raw below ih =>
    rw [List.map_cons, List.foldl_cons, List.foldl_cons, settle_escapeSegment, ih]

theorem resolve_escapeSegment (below : List Piece) :
    resolve (below.map escapeSegment) = (resolve below).map escapeSegment := by
  rw [resolve_eq_foldl_settle, resolve_eq_foldl_settle]
  exact foldl_settle_escapeSegment [] below

end Keyspace.Piece
