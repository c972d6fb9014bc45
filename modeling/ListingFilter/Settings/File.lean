import ListingFilter.Settings.Decoding

namespace ListingFilter

inductive FileContent
  | missing
  | unreadable (reason : Text)
  | bytes (content : ByteArray)

namespace FileContent

def folder : FileContent := unreadable (.ofString "Is a directory (os error 21)")

end FileContent

namespace Settings

inductive LoadError
  | malformed (fault : Json.Fault)
  | missing (path : Text)
  | unreadable (path reason : Text)
  | malformedFile (path : Text) (fault : Json.Fault)

def LoadError.message (e : LoadError) : Text :=
  .ofString "配置错误: " ++
    match e with
    | malformed fault => fault.message
    | missing path => .ofString "配置文件不存在: " ++ path
    | unreadable path reason => .ofString "无法读取配置文件 " ++ path ++ .ofString ": " ++ reason
    | malformedFile path fault =>
      .ofString "无法解析JSON配置文件 " ++ path ++ .ofString ": " ++ fault.message

def load (t : Text) : Except LoadError Settings := (ofText t).mapError .malformed

/-- The settings in a file, where `path` is its path as it was given. -/
def loadFile (path : Text) (content : FileContent) : Except LoadError Settings :=
  match content with
  | .missing => .error (.missing path)
  | .unreadable reason => .error (.unreadable path reason)
  | .bytes content =>
    match String.fromUTF8? content with
    | none => .error (.unreadable path (.ofString "stream did not contain valid UTF-8"))
    | some s => (ofText (.ofString s)).mapError (.malformedFile path)

end Settings

end ListingFilter
