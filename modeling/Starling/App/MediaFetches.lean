import Starling.Foundation.Run

namespace Starling.App

/-!
# Fetches of one blob

The fetcher stores what a peer answers; whether it decrypts is found out later.
-/

structure StoredMedia where
  row : Bool
  file : Option (List UInt8)

/-- A call of `fetch`: whether `resolve` finds a peer, and its answer, `none` for an error. -/
structure MediaFetch where
  resolves : Bool
  answer : Option (List UInt8)

namespace StoredMedia

variable (media : StoredMedia) (decrypts : List UInt8 -> Bool) (fetch : MediaFetch)

def asks : Bool := !(media.row && media.file.isSome)

/-- `RemoteMediaFetcher.fetch`.  A row without a file is deleted first. -/
def after : StoredMedia :=
  if media.asks then
    match fetch.resolves, fetch.answer with
    | true, some bytes => ⟨true, some bytes⟩
    | _, _ => { media with row := false }
  else media

def step : Except Empty StoredMedia := .ok (media.after fetch)

def Right : Prop := media.row = true ∧ media.file.any decrypts = true

def Recovers : Prop := media.asks = true ∨ media.Right decrypts

def Honest : Prop := media.asks = true -> fetch.resolves = true -> fetch.answer.all decrypts = true

variable {media decrypts fetch}

theorem Recovers.after_iff (recovers : media.Recovers decrypts) :
    (media.after fetch).Recovers decrypts ∧ (media.Right decrypts -> (media.after fetch).Right decrypts) ↔
      media.Honest decrypts fetch := by
  obtain ⟨row, file⟩ := media
  obtain ⟨resolves, answer⟩ := fetch
  cases row <;> cases file <;> cases resolves <;> cases answer <;> simp_all [Recovers, Right, Honest, after, asks]

end StoredMedia

/-- Recovery is never blocked exactly if every peer that is asked answers with the right blob or an
error. -/
theorem media_recovery_iff (decrypts : List UInt8 -> Bool) (fetches : List MediaFetch) :
    Along StoredMedia.step (fun media fetch => (media.after fetch).Recovers decrypts ∧
        (media.Right decrypts -> (media.after fetch).Right decrypts)) ⟨false, none⟩ fetches ↔
      Along StoredMedia.step (fun media fetch => media.Honest decrypts fetch) ⟨false, none⟩ fetches := by
  apply Along.iff_of_invariant _ _ _ (fun _ _ _ _ _ _ => trivial)
  · exact fun media => media.Recovers decrypts
  · exact fun _ _ recovers _ => recovers.after_iff
  · rintro _ _ _ _ both ⟨⟩
    exact both.1
  · exact .inl rfl

/-- A peer without the blob answers with nothing, and nobody is asked again. -/
theorem media_recovery_blocked :
    (finalState StoredMedia.step ⟨false, none⟩ [⟨true, some []⟩]).asks = false ∧
      ¬ (finalState StoredMedia.step ⟨false, none⟩ [⟨true, some []⟩]).Right (fun bytes => !bytes.isEmpty) :=
  ⟨rfl, fun right => nomatch right.2⟩

end Starling.App
