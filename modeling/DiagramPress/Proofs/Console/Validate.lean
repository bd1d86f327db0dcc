-- A diagram is validated in the same way in both of its formats: the image
-- gives back the document that was put into it.
import DiagramPress.Console.Program
import DiagramPress.Proofs.Compile
import DiagramPress.Proofs.Image.Embedding
import DiagramPress.Proofs.Markup.Faults

namespace DiagramPress.Console

/-! ## The document in a file -/

/-- A document is taken for itself. -/
theorem documentIn_encode {α : Type} [Scalar α] [NumberText α] (m : Model α) (modified : String) :
    documentIn (Markup.encode m modified) = .ok (Markup.encode m modified) := by
  obtain ⟨rest, hrest⟩ := Markup.encode_starts m modified
  have hdrop : (Markup.encode m modified).toList.dropWhile Text.isBlank =
      "<mxfile".toList ++ rest := by
    rw [hrest]
    rfl
  have hpre : "<mxfile".toList.isPrefixOf ("<mxfile".toList ++ rest) = true := by
    rw [List.isPrefixOf_iff_prefix]
    exact ⟨rest, rfl⟩
  rw [documentIn, hdrop, if_pos hpre]

theorem prolog_cons : Image.prolog.toList = '<' :: '?' :: Image.prolog.toList.drop 2 := by
  decide +kernel

/-- An image is taken for the document in it. -/
theorem documentIn_embed (m : Model Float32) (settings : RenderSettings Float32) (xml : String) :
    documentIn (Image.embed Codec.Packing.compressed (Image.draw m settings) xml) = .ok xml := by
  obtain ⟨after, more, himage, -⟩ := Image.draw_opening m settings
  have hembed := Image.embed_opening Codec.Packing.compressed xml himage
  have hfile : "<mxfile".toList.isPrefixOf
      ((Image.embed Codec.Packing.compressed (Image.draw m settings) xml).toList.dropWhile
        Text.isBlank) = false := by
    rw [hembed, prolog_cons]
    rfl
  have hsvg : Markup.occurs "<svg".toList
      (Image.embed Codec.Packing.compressed (Image.draw m settings) xml).toList = true := by
    rw [hembed, Image.opening_split, List.append_assoc, List.append_assoc]
    exact Markup.occurs_of_append _ (Markup.occurs_append _ _)
  have hextract := Image.extract_embed Codec.Zlib.expand?_compress m settings xml
  rw [← Codec.Packing.compressed_eq_wrapping] at hextract
  rw [documentIn, if_neg (by rw [hfile]; decide), if_pos hsvg, hextract]

/-! ## The command -/

variable {m : Type → Type} [Monad m] [LawfulMonad m]

/-- The surroundings where every file that is read has this text. -/
def Surroundings.reading (s : Surroundings m) (access : m Unit) (text : String) : Surroundings m :=
  { s with read := fun _ => do access; return .ok text }

theorem attempt_reading (access : m Unit) (text : String) (failure : FileError → Failure) :
    attempt (do access; return .ok text) failure =
      (do liftM access; return text : Step m String) := by
  apply ExceptT.ext
  simp [attempt]

/-- What is told about a file depends on the document in it alone. -/
theorem validateFile_reading (s : Surroundings m) (access : m Unit) (path : String) (json : Bool)
    {a b : String} (h : documentIn a = documentIn b) :
    validateFile (s.reading access a) path json = validateFile (s.reading access b) path json := by
  have hread (text : String) :
      attempt ((s.reading access text).read path) (.inputFile path) =
        (do liftM access; return text : Step m String) := attempt_reading access text _
  simp only [validateFile, hread, bind_assoc, pure_bind, h]
  rfl

/-! ## The law of the two formats -/

/-- Every image carries its document, over every way to deflate bytes that can be
inflated again, so over the one that comes with the program; without it the
image is as it was drawn. So a compiled diagram is validated alike in both formats. -/
theorem images_carry_their_documents :
    (∀ (deflate : List UInt8 → List UInt8) (inflate? : List UInt8 → Option (List UInt8)),
      (∀ bytes, inflate? (deflate bytes) = some bytes) →
        ∀ (m : Model Float32) (settings : RenderSettings Float32) (xml : String),
          let packing := Codec.Packing.wrapping deflate inflate?
          let image := Image.embed packing (Image.draw m settings) xml
          Image.extract packing image = .ok xml ∧
            Image.withoutContent image.toList = (Image.draw m settings).toList) ∧
    (∀ (m : Model Float32) (settings : RenderSettings Float32) (xml : String),
      let image := Image.embed Codec.Packing.compressed (Image.draw m settings) xml
      Image.extract Codec.Packing.compressed image = .ok xml ∧
        Image.withoutContent image.toList = (Image.draw m settings).toList) ∧
    ∀ (settings : Settings Float32) (modified : String) (d : Description Float32)
      (c : Compiled Float32), (Workshop.bundled settings modified).compile d = .ok c →
        documentIn c.image = .ok c.document ∧ documentIn c.document = .ok c.document ∧
        ∀ (m : Type → Type) [Monad m] [LawfulMonad m] (s : Surroundings m) (access : m Unit)
          (now path : String) (json : Bool),
          runCommand (s.reading access c.image) now (.validate path json) =
            runCommand (s.reading access c.document) now (.validate path json) := by
  refine ⟨fun deflate inflate? h m settings xml => ?_, fun m settings xml => ?_,
    fun settings modified d c hc => ?_⟩
  · exact ⟨Image.extract_embed h m settings xml, Image.withoutContent_embed _ m settings xml⟩
  · exact ⟨Image.extract_embed Codec.Zlib.expand?_compress m settings xml,
      Image.withoutContent_embed _ m settings xml⟩
  · obtain ⟨model, -, rfl⟩ := Workshop.compile_eq_ok hc
    have himage := documentIn_embed model settings.render (Markup.encode model modified)
    have hdocument := documentIn_encode model modified
    refine ⟨himage, hdocument, fun m _ _ s access now path json => ?_⟩
    have hsame := validateFile_reading s access path json (himage.trans hdocument.symm)
    exact congrArg (fun step => conclude step (complainOf s)) hsame

section

/-- One node with a label that looks like an image with a content of its own. -/
def misleadingDescription : Description Float32 where
  title := "content=\"a\""
  theme := .professional
  layout := ⟨.none, .topBottom, Spacing.default⟩
  nodes := [⟨"a", "<svg content=\"b\" >", "rounded=1;", none, none, none, none⟩]
  edges := []
  groups := []

theorem a_misleading_image_carries_its_document :
    (∀ bytes, Codec.Zlib.expand? (Codec.Zlib.compress bytes) = some bytes) ∧
      ∃ c, (Workshop.bundled Settings.default "now").compile misleadingDescription = .ok c ∧
        Image.extract (Codec.Packing.wrapping Codec.Zlib.compress Codec.Zlib.expand?)
          (Image.embed (Codec.Packing.wrapping Codec.Zlib.compress Codec.Zlib.expand?)
            (Image.draw c.model RenderSettings.default) "<svg content=\"c\">") =
              .ok "<svg content=\"c\">" ∧
        documentIn c.image = .ok c.document := by
  have hlaw := images_carry_their_documents
  refine ⟨Codec.Zlib.expand?_compress, _, rfl, ?_, ?_⟩
  · exact (hlaw.1 _ _ Codec.Zlib.expand?_compress _ _ _).1
  · exact (hlaw.2.2 Settings.default "now" misleadingDescription _ rfl).1

end

end DiagramPress.Console
