import ContentProbe.Record.Ledger
import Mathlib.Data.List.Infix

/-!
A file keeps the end of the name that it was asked for, wherever the name leads. So the two files of a ledger
are never one, though their names may lead out of the directory.
-/

namespace ContentProbe

namespace Trail

/-- The last part of what is split keeps an end that holds no separator. -/
theorem suffix_getLast_splitOn {c : Char} {cs suffix : List Char} (hsuffix : suffix <:+ cs)
    (hc : c ∉ suffix) : ∃ last ∈ (cs.splitOn c).getLast?, suffix <:+ last := by
  obtain ⟨before, rfl⟩ := hsuffix
  induction before with
  | nil => exact ⟨suffix, by rw [List.nil_append, List.splitOn_eq_singleton hc]; rfl, List.suffix_refl suffix⟩
  | cons d before ih =>
      obtain ⟨last, hlast, hsuffix⟩ := ih
      rw [List.cons_append, List.splitOn_cons_eq_if_modifyHead]
      obtain ⟨part, parts, hparts⟩ := List.exists_cons_of_ne_nil (List.splitOn_ne_nil c (before ++ suffix))
      rw [hparts] at hlast ⊢
      split
      · exact ⟨last, hlast, hsuffix⟩
      · cases parts with
        | nil =>
            obtain rfl : part = last := by simpa using hlast
            exact ⟨d :: part, rfl, hsuffix.trans (List.suffix_cons d part)⟩
        | cons next parts => exact ⟨last, hlast, hsuffix⟩

theorem suffix_pathOf (home : Trail) (name : String) : name.toList <:+ (home.pathOf name).toList := by
  rw [pathOf]
  split
  · exact List.suffix_refl _
  · rw [String.toList_append]
    exact List.suffix_append _ _

theorem suffix_locate {home : Trail} {name file : String} (h : home.locate name = .ok file)
    {suffix : List Char} (hsuffix : suffix <:+ name.toList) (hslash : '/' ∉ suffix) :
    suffix <:+ file.toList := by
  obtain ⟨last, hlast, hend⟩ := suffix_getLast_splitOn (hsuffix.trans (suffix_pathOf home name)) hslash
  have hown : (((home.pathOf name).toList.splitOn '/').map String.ofList).getLastD "" =
      String.ofList last := by
    rw [List.getLastD_eq_getLast?, List.getLast?_map, hlast]
    rfl
  unfold locate at h
  simp only [hown, bind, Except.bind, throw, throwThe, MonadExceptOf.throw, pure, Except.pure] at h
  -- The name holds no NUL, the path and its last part are short enough, and each part before it exists.
  iterate 4
    split at h
    · cases h
  obtain rfl := Except.ok.inj h
  split
  · rwa [String.toList_ofList]
  · rw [String.toList_append, String.toList_ofList]
    exact hend.trans (List.suffix_append _ _)

/-- The two files of a ledger differ. -/
theorem uploads_ne_downloads {home : Trail} {stem uploads downloads : String}
    (huploads : home.locate (Sink.uploadsName stem) = .ok uploads)
    (hdownloads : home.locate (Sink.downloadsName stem) = .ok downloads) : uploads ≠ downloads := by
  have hup : "_uploads.ndjson".toList <:+ uploads.toList :=
    suffix_locate huploads (by rw [Sink.uploadsName, String.toList_append]; exact List.suffix_append _ _)
      (by decide)
  have hdown : "_downloads.ndjson".toList <:+ downloads.toList :=
    suffix_locate hdownloads (by rw [Sink.downloadsName, String.toList_append]; exact List.suffix_append _ _)
      (by decide)
  rintro rfl
  have hends := List.suffix_of_suffix_length_le hup hdown (by decide)
  exact absurd hends (by decide)

end Trail

end ContentProbe
