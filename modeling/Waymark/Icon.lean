import Waymark.Key
import Waymark.Path
/-!
# Icons

The icon of a location depends on whether it is a folder, and of a file on its extension.
-/

namespace Waymark.Icon

/-- Keys that begin with two colons stand for things that are no files. -/
def isVirtual (key : String) : Bool :=
  [':', ':'].isPrefixOf key.toList

def ofExtension (extension : String) : String :=
  if ["png", "jpg", "jpeg", "gif", "bmp", "svg", "webp"].contains extension then
    "image-x-generic-symbolic"
  else if ["mp4", "mkv", "mov", "mp3", "flac", "wav"].contains extension then
    "audio-video-generic-symbolic"
  else if ["pdf", "doc", "docx", "xls", "xlsx", "ppt", "pptx", "odt"].contains extension then
    "x-office-document-symbolic"
  else if ["zip", "7z", "rar", "tar", "gz", "iso"].contains extension then
    "package-x-generic-symbolic"
  else if ["exe", "msi", "bat", "cmd", "ps1", "sh"].contains extension then
    "application-x-executable-symbolic"
  else if ["lnk", "url"].contains extension then
    "emblem-symbolic-link-symbolic"
  else
    "text-x-generic-symbolic"

def isDrive (path : Path) : Bool :=
  path.parent?.isNone || (Key.dropSeparatorsAtEnd path.text.toList).getLast? = some ':'

def name (path : Path) (isFolder : Bool) : String :=
  if isVirtual path.text then "computer-symbolic"
  else if isFolder then
    if isDrive path then "drive-harddisk-symbolic" else "folder-symbolic"
  else ofExtension (Text.lowerAscii (path.extension?.getD ""))

end Waymark.Icon
