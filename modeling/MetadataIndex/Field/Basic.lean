/-!
# Index fields

An index field is a name with a value. Several fields may share a name; that is how an index field
has more than one value. The names below are those that are written without being configured.
-/

set_option autoImplicit false

namespace MetadataIndex

/-- A named value of the index. -/
structure Field where
  name : String
  value : String
deriving DecidableEq, Repr

namespace Field

/-- The values of the fields with a name, in order. -/
def valuesOf (name : String) (fields : List Field) : List String :=
  (fields.filter (·.name == name)).map (·.value)

end Field

namespace FieldName

/-- What is put after the name of a field that is not cut into words. -/
def untokenized (name : String) : String := name ++ "_UNTOKENIZED"

def sortMark : String := "SORT_"

/-- What stands before the name of a numeric sort field. -/
def sortNumberMark : String := "SORTNUM_"

def languageMark : String := "_LANG_"

def identifier : String := "PI"

def currentNoSort : String := "CURRENTNOSORT"

def default : String := "DEFAULT"

def accessCondition : String := "ACCESSCONDITION"

def accessRestricted : String := "METADATA_ACCESS_RESTRICTED"

def year : String := "YEAR"

def century : String := "CENTURY"

def yearMonth : String := "YEARMONTH"

def yearMonthDay : String := "YEARMONTHDAY"

def monthDay : String := "MONTHDAY"

def wktCoords : String := "WKT_COORDS"

def hasWktCoords : String := "BOOL_WKT_COORDS"

def normCoords : String := "NORM_COORDS"

def normCoordsGeoJson : String := "NORM_COORDS_GEOJSON"

def label : String := "LABEL"

def groupKind : String := "METADATATYPE"

def groupKey : String := "GROUPFIELD"

def authorityTerms : String := "NORMDATATERMS"

def mainValue : String := "MD_VALUE"

def displayForm : String := "MD_DISPLAYFORM"

def location : String := "MD_LOCATION"

def firstName : String := "MD_FIRSTNAME"

def lastName : String := "MD_LASTNAME"

def reference : String := "MD_REFID"

def normMark : String := "NORM_"

def normUri : String := "NORM_URI"

def normName : String := "NORM_NAME"

def normIdentifier : String := "NORM_IDENTIFIER"

def normPlace : String := "NORM_PLACE"

def normDate : String := "NORM_DATE"

def normLifePeriod : String := "NORM_LIFEPERIOD"

def normStaticPage : String := "NORM_STATICPAGE"

def structural : List String := [groupKey, label, groupKind]

end FieldName

end MetadataIndex
