import Timetable.Zone

/-!
# The listed zones

The zones that can be named, each with its history of offsets.
-/

namespace Timetable
namespace Zone

/-- The zone UTC. -/
def utc : Zone where
  name := "UTC"
  initial := 0
  changes := []

/-- The zone Etc/UTC. -/
def etcUtc : Zone where
  name := "Etc/UTC"
  initial := 0
  changes := []

/-- The zone GMT. -/
def gmt : Zone where
  name := "GMT"
  initial := 0
  changes := []

/-- The zone Etc/GMT+12. -/
def etcGmtPlus12 : Zone where
  name := "Etc/GMT+12"
  initial := -43200
  changes := []

/-- The zone Asia/Tokyo. -/
def tokyo : Zone where
  name := "Asia/Tokyo"
  initial := 33539
  changes := [
    ⟨-2587745939, 32400⟩, ⟨-683802000, 36000⟩, ⟨-672310800, 32400⟩, ⟨-654771600, 36000⟩,
    ⟨-640861200, 32400⟩, ⟨-620298000, 36000⟩, ⟨-609411600, 32400⟩, ⟨-588848400, 36000⟩,
    ⟨-577962000, 32400⟩]

/-- The zone Asia/Kolkata. -/
def kolkata : Zone where
  name := "Asia/Kolkata"
  initial := 21208
  changes := [
    ⟨-3645237208, 21200⟩, ⟨-3155694800, 19270⟩, ⟨-2019705670, 19800⟩, ⟨-891581400, 23400⟩,
    ⟨-872058600, 19800⟩, ⟨-862637400, 23400⟩, ⟨-764145000, 19800⟩]

/-- The zone Asia/Kathmandu. -/
def kathmandu : Zone where
  name := "Asia/Kathmandu"
  initial := 20476
  changes := [
    ⟨-1577943676, 19800⟩, ⟨504901800, 20700⟩]

/-- The zone Pacific/Kiritimati. -/
def kiritimati : Zone where
  name := "Pacific/Kiritimati"
  initial := -37760
  changes := [
    ⟨-2177415040, -38400⟩, ⟨307622400, -36000⟩, ⟨788868000, 50400⟩]

/-- The zone Pacific/Marquesas. -/
def marquesas : Zone where
  name := "Pacific/Marquesas"
  initial := -33480
  changes := [
    ⟨-1806676920, -34200⟩]

/-- The zone Africa/Monrovia. -/
def monrovia : Zone where
  name := "Africa/Monrovia"
  initial := -2588
  changes := [
    ⟨-1604359012, -2670⟩, ⟨63593070, 0⟩]

/-- The zone America/New_York. -/
def newYork : Zone where
  name := "America/New_York"
  initial := -17762
  changes := [
    ⟨-2717633038, -18000⟩, ⟨-1633280400, -14400⟩, ⟨-1615140000, -18000⟩, ⟨-1601830800, -14400⟩,
    ⟨-1583690400, -18000⟩, ⟨-1570381200, -14400⟩, ⟨-1551636000, -18000⟩, ⟨-1536512400, -14400⟩,
    ⟨-1523210400, -18000⟩, ⟨-1504458000, -14400⟩, ⟨-1491760800, -18000⟩, ⟨-1473008400, -14400⟩,
    ⟨-1459706400, -18000⟩, ⟨-1441558800, -14400⟩, ⟨-1428256800, -18000⟩, ⟨-1410109200, -14400⟩,
    ⟨-1396807200, -18000⟩, ⟨-1378659600, -14400⟩, ⟨-1365357600, -18000⟩, ⟨-1347210000, -14400⟩,
    ⟨-1333908000, -18000⟩, ⟨-1315155600, -14400⟩, ⟨-1301853600, -18000⟩, ⟨-1283706000, -14400⟩,
    ⟨-1270404000, -18000⟩, ⟨-1252256400, -14400⟩, ⟨-1238954400, -18000⟩, ⟨-1220806800, -14400⟩,
    ⟨-1207504800, -18000⟩, ⟨-1189357200, -14400⟩, ⟨-1176055200, -18000⟩, ⟨-1157302800, -14400⟩,
    ⟨-1144605600, -18000⟩, ⟨-1125853200, -14400⟩, ⟨-1112551200, -18000⟩, ⟨-1094403600, -14400⟩,
    ⟨-1081101600, -18000⟩, ⟨-1062954000, -14400⟩, ⟨-1049652000, -18000⟩, ⟨-1031504400, -14400⟩,
    ⟨-1018202400, -18000⟩, ⟨-1000054800, -14400⟩, ⟨-986752800, -18000⟩, ⟨-968000400, -14400⟩,
    ⟨-955303200, -18000⟩, ⟨-936550800, -14400⟩, ⟨-923248800, -18000⟩, ⟨-905101200, -14400⟩,
    ⟨-891799200, -18000⟩, ⟨-880218000, -14400⟩, ⟨-765396000, -18000⟩, ⟨-747248400, -14400⟩,
    ⟨-733946400, -18000⟩, ⟨-715798800, -14400⟩, ⟨-702496800, -18000⟩, ⟨-684349200, -14400⟩,
    ⟨-671047200, -18000⟩, ⟨-652899600, -14400⟩, ⟨-639597600, -18000⟩, ⟨-620845200, -14400⟩,
    ⟨-608148000, -18000⟩, ⟨-589395600, -14400⟩, ⟨-576093600, -18000⟩, ⟨-557946000, -14400⟩,
    ⟨-544644000, -18000⟩, ⟨-526496400, -14400⟩, ⟨-513194400, -18000⟩, ⟨-495046800, -14400⟩,
    ⟨-481744800, -18000⟩, ⟨-463597200, -14400⟩, ⟨-447271200, -18000⟩, ⟨-431542800, -14400⟩,
    ⟨-415821600, -18000⟩, ⟨-400093200, -14400⟩, ⟨-384372000, -18000⟩, ⟨-368643600, -14400⟩,
    ⟨-352922400, -18000⟩, ⟨-337194000, -14400⟩, ⟨-321472800, -18000⟩, ⟨-305744400, -14400⟩,
    ⟨-289418400, -18000⟩, ⟨-273690000, -14400⟩, ⟨-257968800, -18000⟩, ⟨-242240400, -14400⟩,
    ⟨-226519200, -18000⟩, ⟨-210790800, -14400⟩, ⟨-195069600, -18000⟩, ⟨-179341200, -14400⟩,
    ⟨-163620000, -18000⟩, ⟨-147891600, -14400⟩, ⟨-131565600, -18000⟩, ⟨-116442000, -14400⟩,
    ⟨-100116000, -18000⟩, ⟨-84387600, -14400⟩, ⟨-68666400, -18000⟩, ⟨-52938000, -14400⟩,
    ⟨-37216800, -18000⟩, ⟨-21488400, -14400⟩, ⟨-5767200, -18000⟩, ⟨9961200, -14400⟩,
    ⟨25682400, -18000⟩, ⟨41410800, -14400⟩, ⟨57736800, -18000⟩, ⟨73465200, -14400⟩,
    ⟨89186400, -18000⟩, ⟨104914800, -14400⟩, ⟨120636000, -18000⟩, ⟨126687600, -14400⟩,
    ⟨152085600, -18000⟩, ⟨162370800, -14400⟩, ⟨183535200, -18000⟩, ⟨199263600, -14400⟩,
    ⟨215589600, -18000⟩, ⟨230713200, -14400⟩, ⟨247039200, -18000⟩, ⟨262767600, -14400⟩,
    ⟨278488800, -18000⟩, ⟨294217200, -14400⟩, ⟨309938400, -18000⟩, ⟨325666800, -14400⟩,
    ⟨341388000, -18000⟩, ⟨357116400, -14400⟩, ⟨372837600, -18000⟩, ⟨388566000, -14400⟩,
    ⟨404892000, -18000⟩, ⟨420015600, -14400⟩, ⟨436341600, -18000⟩, ⟨452070000, -14400⟩,
    ⟨467791200, -18000⟩, ⟨483519600, -14400⟩, ⟨499240800, -18000⟩, ⟨514969200, -14400⟩,
    ⟨530690400, -18000⟩, ⟨544604400, -14400⟩, ⟨562140000, -18000⟩, ⟨576054000, -14400⟩,
    ⟨594194400, -18000⟩, ⟨607503600, -14400⟩, ⟨625644000, -18000⟩, ⟨638953200, -14400⟩,
    ⟨657093600, -18000⟩, ⟨671007600, -14400⟩, ⟨688543200, -18000⟩, ⟨702457200, -14400⟩,
    ⟨719992800, -18000⟩, ⟨733906800, -14400⟩, ⟨752047200, -18000⟩, ⟨765356400, -14400⟩,
    ⟨783496800, -18000⟩, ⟨796806000, -14400⟩, ⟨814946400, -18000⟩, ⟨828860400, -14400⟩,
    ⟨846396000, -18000⟩, ⟨860310000, -14400⟩, ⟨877845600, -18000⟩, ⟨891759600, -14400⟩,
    ⟨909295200, -18000⟩, ⟨923209200, -14400⟩, ⟨941349600, -18000⟩, ⟨954658800, -14400⟩,
    ⟨972799200, -18000⟩, ⟨986108400, -14400⟩, ⟨1004248800, -18000⟩, ⟨1018162800, -14400⟩,
    ⟨1035698400, -18000⟩, ⟨1049612400, -14400⟩, ⟨1067148000, -18000⟩, ⟨1081062000, -14400⟩,
    ⟨1099202400, -18000⟩, ⟨1112511600, -14400⟩, ⟨1130652000, -18000⟩, ⟨1143961200, -14400⟩,
    ⟨1162101600, -18000⟩, ⟨1173596400, -14400⟩, ⟨1194156000, -18000⟩, ⟨1205046000, -14400⟩,
    ⟨1225605600, -18000⟩, ⟨1236495600, -14400⟩, ⟨1257055200, -18000⟩, ⟨1268550000, -14400⟩,
    ⟨1289109600, -18000⟩, ⟨1299999600, -14400⟩, ⟨1320559200, -18000⟩, ⟨1331449200, -14400⟩,
    ⟨1352008800, -18000⟩, ⟨1362898800, -14400⟩, ⟨1383458400, -18000⟩, ⟨1394348400, -14400⟩,
    ⟨1414908000, -18000⟩, ⟨1425798000, -14400⟩, ⟨1446357600, -18000⟩, ⟨1457852400, -14400⟩,
    ⟨1478412000, -18000⟩, ⟨1489302000, -14400⟩, ⟨1509861600, -18000⟩, ⟨1520751600, -14400⟩,
    ⟨1541311200, -18000⟩, ⟨1552201200, -14400⟩, ⟨1572760800, -18000⟩, ⟨1583650800, -14400⟩,
    ⟨1604210400, -18000⟩, ⟨1615705200, -14400⟩, ⟨1636264800, -18000⟩, ⟨1647154800, -14400⟩,
    ⟨1667714400, -18000⟩, ⟨1678604400, -14400⟩, ⟨1699164000, -18000⟩, ⟨1710054000, -14400⟩,
    ⟨1730613600, -18000⟩, ⟨1741503600, -14400⟩, ⟨1762063200, -18000⟩, ⟨1772953200, -14400⟩,
    ⟨1793512800, -18000⟩, ⟨1805007600, -14400⟩, ⟨1825567200, -18000⟩, ⟨1836457200, -14400⟩,
    ⟨1857016800, -18000⟩, ⟨1867906800, -14400⟩, ⟨1888466400, -18000⟩, ⟨1899356400, -14400⟩,
    ⟨1919916000, -18000⟩, ⟨1930806000, -14400⟩, ⟨1951365600, -18000⟩, ⟨1962860400, -14400⟩,
    ⟨1983420000, -18000⟩, ⟨1994310000, -14400⟩, ⟨2014869600, -18000⟩, ⟨2025759600, -14400⟩,
    ⟨2046319200, -18000⟩, ⟨2057209200, -14400⟩, ⟨2077768800, -18000⟩, ⟨2088658800, -14400⟩,
    ⟨2109218400, -18000⟩, ⟨2120108400, -14400⟩, ⟨2140668000, -18000⟩, ⟨2152162800, -14400⟩,
    ⟨2172722400, -18000⟩, ⟨2183612400, -14400⟩, ⟨2204172000, -18000⟩, ⟨2215062000, -14400⟩,
    ⟨2235621600, -18000⟩, ⟨2246511600, -14400⟩, ⟨2267071200, -18000⟩, ⟨2277961200, -14400⟩,
    ⟨2298520800, -18000⟩, ⟨2309410800, -14400⟩, ⟨2329970400, -18000⟩, ⟨2341465200, -14400⟩,
    ⟨2362024800, -18000⟩, ⟨2372914800, -14400⟩, ⟨2393474400, -18000⟩, ⟨2404364400, -14400⟩,
    ⟨2424924000, -18000⟩, ⟨2435814000, -14400⟩, ⟨2456373600, -18000⟩, ⟨2467263600, -14400⟩,
    ⟨2487823200, -18000⟩, ⟨2499318000, -14400⟩, ⟨2519877600, -18000⟩, ⟨2530767600, -14400⟩,
    ⟨2551327200, -18000⟩, ⟨2562217200, -14400⟩, ⟨2582776800, -18000⟩, ⟨2593666800, -14400⟩,
    ⟨2614226400, -18000⟩, ⟨2625116400, -14400⟩, ⟨2645676000, -18000⟩, ⟨2656566000, -14400⟩,
    ⟨2677125600, -18000⟩, ⟨2688620400, -14400⟩, ⟨2709180000, -18000⟩, ⟨2720070000, -14400⟩,
    ⟨2740629600, -18000⟩, ⟨2751519600, -14400⟩, ⟨2772079200, -18000⟩, ⟨2782969200, -14400⟩,
    ⟨2803528800, -18000⟩, ⟨2814418800, -14400⟩, ⟨2834978400, -18000⟩, ⟨2846473200, -14400⟩,
    ⟨2867032800, -18000⟩, ⟨2877922800, -14400⟩, ⟨2898482400, -18000⟩, ⟨2909372400, -14400⟩,
    ⟨2929932000, -18000⟩, ⟨2940822000, -14400⟩, ⟨2961381600, -18000⟩, ⟨2972271600, -14400⟩,
    ⟨2992831200, -18000⟩, ⟨3003721200, -14400⟩, ⟨3024280800, -18000⟩, ⟨3035775600, -14400⟩,
    ⟨3056335200, -18000⟩, ⟨3067225200, -14400⟩, ⟨3087784800, -18000⟩, ⟨3098674800, -14400⟩,
    ⟨3119234400, -18000⟩, ⟨3130124400, -14400⟩, ⟨3150684000, -18000⟩, ⟨3161574000, -14400⟩,
    ⟨3182133600, -18000⟩, ⟨3193023600, -14400⟩, ⟨3213583200, -18000⟩, ⟨3225078000, -14400⟩,
    ⟨3245637600, -18000⟩, ⟨3256527600, -14400⟩, ⟨3277087200, -18000⟩, ⟨3287977200, -14400⟩,
    ⟨3308536800, -18000⟩, ⟨3319426800, -14400⟩, ⟨3339986400, -18000⟩, ⟨3350876400, -14400⟩,
    ⟨3371436000, -18000⟩, ⟨3382930800, -14400⟩, ⟨3403490400, -18000⟩, ⟨3414380400, -14400⟩,
    ⟨3434940000, -18000⟩, ⟨3445830000, -14400⟩, ⟨3466389600, -18000⟩, ⟨3477279600, -14400⟩,
    ⟨3497839200, -18000⟩, ⟨3508729200, -14400⟩, ⟨3529288800, -18000⟩, ⟨3540178800, -14400⟩,
    ⟨3560738400, -18000⟩, ⟨3572233200, -14400⟩, ⟨3592792800, -18000⟩, ⟨3603682800, -14400⟩,
    ⟨3624242400, -18000⟩, ⟨3635132400, -14400⟩, ⟨3655692000, -18000⟩, ⟨3666582000, -14400⟩,
    ⟨3687141600, -18000⟩, ⟨3698031600, -14400⟩, ⟨3718591200, -18000⟩, ⟨3730086000, -14400⟩,
    ⟨3750645600, -18000⟩, ⟨3761535600, -14400⟩, ⟨3782095200, -18000⟩, ⟨3792985200, -14400⟩,
    ⟨3813544800, -18000⟩, ⟨3824434800, -14400⟩, ⟨3844994400, -18000⟩, ⟨3855884400, -14400⟩,
    ⟨3876444000, -18000⟩, ⟨3887334000, -14400⟩, ⟨3907893600, -18000⟩, ⟨3919388400, -14400⟩,
    ⟨3939948000, -18000⟩, ⟨3950838000, -14400⟩, ⟨3971397600, -18000⟩, ⟨3982287600, -14400⟩,
    ⟨4002847200, -18000⟩, ⟨4013737200, -14400⟩, ⟨4034296800, -18000⟩, ⟨4045186800, -14400⟩,
    ⟨4065746400, -18000⟩, ⟨4076636400, -14400⟩, ⟨4097196000, -18000⟩]

/-- The zone Europe/Paris. -/
def paris : Zone where
  name := "Europe/Paris"
  initial := 3600
  changes := [
    ⟨954032400, 7200⟩, ⟨972781200, 3600⟩, ⟨985482000, 7200⟩, ⟨1004230800, 3600⟩,
    ⟨1017536400, 7200⟩, ⟨1035680400, 3600⟩, ⟨1048986000, 7200⟩, ⟨1067130000, 3600⟩,
    ⟨1080435600, 7200⟩, ⟨1099184400, 3600⟩, ⟨1111885200, 7200⟩, ⟨1130634000, 3600⟩,
    ⟨1143334800, 7200⟩, ⟨1162083600, 3600⟩, ⟨1174784400, 7200⟩, ⟨1193533200, 3600⟩,
    ⟨1206838800, 7200⟩, ⟨1224982800, 3600⟩, ⟨1238288400, 7200⟩, ⟨1256432400, 3600⟩,
    ⟨1269738000, 7200⟩, ⟨1288486800, 3600⟩, ⟨1301187600, 7200⟩, ⟨1319936400, 3600⟩,
    ⟨1332637200, 7200⟩, ⟨1351386000, 3600⟩, ⟨1364691600, 7200⟩, ⟨1382835600, 3600⟩,
    ⟨1396141200, 7200⟩, ⟨1414285200, 3600⟩, ⟨1427590800, 7200⟩, ⟨1445734800, 3600⟩,
    ⟨1459040400, 7200⟩, ⟨1477789200, 3600⟩, ⟨1490490000, 7200⟩, ⟨1509238800, 3600⟩,
    ⟨1521939600, 7200⟩, ⟨1540688400, 3600⟩, ⟨1553994000, 7200⟩, ⟨1572138000, 3600⟩,
    ⟨1585443600, 7200⟩, ⟨1603587600, 3600⟩, ⟨1616893200, 7200⟩, ⟨1635642000, 3600⟩,
    ⟨1648342800, 7200⟩, ⟨1667091600, 3600⟩, ⟨1679792400, 7200⟩, ⟨1698541200, 3600⟩,
    ⟨1711846800, 7200⟩, ⟨1729990800, 3600⟩, ⟨1743296400, 7200⟩, ⟨1761440400, 3600⟩,
    ⟨1774746000, 7200⟩, ⟨1792890000, 3600⟩, ⟨1806195600, 7200⟩, ⟨1824944400, 3600⟩,
    ⟨1837645200, 7200⟩, ⟨1856394000, 3600⟩, ⟨1869094800, 7200⟩, ⟨1887843600, 3600⟩,
    ⟨1901149200, 7200⟩, ⟨1919293200, 3600⟩, ⟨1932598800, 7200⟩, ⟨1950742800, 3600⟩,
    ⟨1964048400, 7200⟩, ⟨1982797200, 3600⟩, ⟨1995498000, 7200⟩, ⟨2014246800, 3600⟩,
    ⟨2026947600, 7200⟩, ⟨2045696400, 3600⟩]

/-- The zone Europe/London. -/
def london : Zone where
  name := "Europe/London"
  initial := 0
  changes := [
    ⟨954032400, 3600⟩, ⟨972781200, 0⟩, ⟨985482000, 3600⟩, ⟨1004230800, 0⟩, ⟨1017536400, 3600⟩,
    ⟨1035680400, 0⟩, ⟨1048986000, 3600⟩, ⟨1067130000, 0⟩, ⟨1080435600, 3600⟩, ⟨1099184400, 0⟩,
    ⟨1111885200, 3600⟩, ⟨1130634000, 0⟩, ⟨1143334800, 3600⟩, ⟨1162083600, 0⟩, ⟨1174784400, 3600⟩,
    ⟨1193533200, 0⟩, ⟨1206838800, 3600⟩, ⟨1224982800, 0⟩, ⟨1238288400, 3600⟩, ⟨1256432400, 0⟩,
    ⟨1269738000, 3600⟩, ⟨1288486800, 0⟩, ⟨1301187600, 3600⟩, ⟨1319936400, 0⟩, ⟨1332637200, 3600⟩,
    ⟨1351386000, 0⟩, ⟨1364691600, 3600⟩, ⟨1382835600, 0⟩, ⟨1396141200, 3600⟩, ⟨1414285200, 0⟩,
    ⟨1427590800, 3600⟩, ⟨1445734800, 0⟩, ⟨1459040400, 3600⟩, ⟨1477789200, 0⟩, ⟨1490490000, 3600⟩,
    ⟨1509238800, 0⟩, ⟨1521939600, 3600⟩, ⟨1540688400, 0⟩, ⟨1553994000, 3600⟩, ⟨1572138000, 0⟩,
    ⟨1585443600, 3600⟩, ⟨1603587600, 0⟩, ⟨1616893200, 3600⟩, ⟨1635642000, 0⟩, ⟨1648342800, 3600⟩,
    ⟨1667091600, 0⟩, ⟨1679792400, 3600⟩, ⟨1698541200, 0⟩, ⟨1711846800, 3600⟩, ⟨1729990800, 0⟩,
    ⟨1743296400, 3600⟩, ⟨1761440400, 0⟩, ⟨1774746000, 3600⟩, ⟨1792890000, 0⟩, ⟨1806195600, 3600⟩,
    ⟨1824944400, 0⟩, ⟨1837645200, 3600⟩, ⟨1856394000, 0⟩, ⟨1869094800, 3600⟩, ⟨1887843600, 0⟩,
    ⟨1901149200, 3600⟩, ⟨1919293200, 0⟩, ⟨1932598800, 3600⟩, ⟨1950742800, 0⟩, ⟨1964048400, 3600⟩,
    ⟨1982797200, 0⟩, ⟨1995498000, 3600⟩, ⟨2014246800, 0⟩, ⟨2026947600, 3600⟩, ⟨2045696400, 0⟩]

/-- The zone Europe/Dublin. -/
def dublin : Zone where
  name := "Europe/Dublin"
  initial := 0
  changes := [
    ⟨954032400, 3600⟩, ⟨972781200, 0⟩, ⟨985482000, 3600⟩, ⟨1004230800, 0⟩, ⟨1017536400, 3600⟩,
    ⟨1035680400, 0⟩, ⟨1048986000, 3600⟩, ⟨1067130000, 0⟩, ⟨1080435600, 3600⟩, ⟨1099184400, 0⟩,
    ⟨1111885200, 3600⟩, ⟨1130634000, 0⟩, ⟨1143334800, 3600⟩, ⟨1162083600, 0⟩, ⟨1174784400, 3600⟩,
    ⟨1193533200, 0⟩, ⟨1206838800, 3600⟩, ⟨1224982800, 0⟩, ⟨1238288400, 3600⟩, ⟨1256432400, 0⟩,
    ⟨1269738000, 3600⟩, ⟨1288486800, 0⟩, ⟨1301187600, 3600⟩, ⟨1319936400, 0⟩, ⟨1332637200, 3600⟩,
    ⟨1351386000, 0⟩, ⟨1364691600, 3600⟩, ⟨1382835600, 0⟩, ⟨1396141200, 3600⟩, ⟨1414285200, 0⟩,
    ⟨1427590800, 3600⟩, ⟨1445734800, 0⟩, ⟨1459040400, 3600⟩, ⟨1477789200, 0⟩, ⟨1490490000, 3600⟩,
    ⟨1509238800, 0⟩, ⟨1521939600, 3600⟩, ⟨1540688400, 0⟩, ⟨1553994000, 3600⟩, ⟨1572138000, 0⟩,
    ⟨1585443600, 3600⟩, ⟨1603587600, 0⟩, ⟨1616893200, 3600⟩, ⟨1635642000, 0⟩, ⟨1648342800, 3600⟩,
    ⟨1667091600, 0⟩, ⟨1679792400, 3600⟩, ⟨1698541200, 0⟩, ⟨1711846800, 3600⟩, ⟨1729990800, 0⟩,
    ⟨1743296400, 3600⟩, ⟨1761440400, 0⟩, ⟨1774746000, 3600⟩, ⟨1792890000, 0⟩, ⟨1806195600, 3600⟩,
    ⟨1824944400, 0⟩, ⟨1837645200, 3600⟩, ⟨1856394000, 0⟩, ⟨1869094800, 3600⟩, ⟨1887843600, 0⟩,
    ⟨1901149200, 3600⟩, ⟨1919293200, 0⟩, ⟨1932598800, 3600⟩, ⟨1950742800, 0⟩, ⟨1964048400, 3600⟩,
    ⟨1982797200, 0⟩, ⟨1995498000, 3600⟩, ⟨2014246800, 0⟩, ⟨2026947600, 3600⟩, ⟨2045696400, 0⟩]

/-- The zone Australia/Lord_Howe. -/
def lordHowe : Zone where
  name := "Australia/Lord_Howe"
  initial := 39600
  changes := [
    ⟨953996400, 37800⟩, ⟨967303800, 39600⟩, ⟨985446000, 37800⟩, ⟨1004196600, 39600⟩,
    ⟨1017500400, 37800⟩, ⟨1035646200, 39600⟩, ⟨1048950000, 37800⟩, ⟨1067095800, 39600⟩,
    ⟨1080399600, 37800⟩, ⟨1099150200, 39600⟩, ⟨1111849200, 37800⟩, ⟨1130599800, 39600⟩,
    ⟨1143903600, 37800⟩, ⟨1162049400, 39600⟩, ⟨1174748400, 37800⟩, ⟨1193499000, 39600⟩,
    ⟨1207407600, 37800⟩, ⟨1223134200, 39600⟩, ⟨1238857200, 37800⟩, ⟨1254583800, 39600⟩,
    ⟨1270306800, 37800⟩, ⟨1286033400, 39600⟩, ⟨1301756400, 37800⟩, ⟨1317483000, 39600⟩,
    ⟨1333206000, 37800⟩, ⟨1349537400, 39600⟩, ⟨1365260400, 37800⟩, ⟨1380987000, 39600⟩,
    ⟨1396710000, 37800⟩, ⟨1412436600, 39600⟩, ⟨1428159600, 37800⟩, ⟨1443886200, 39600⟩,
    ⟨1459609200, 37800⟩, ⟨1475335800, 39600⟩, ⟨1491058800, 37800⟩, ⟨1506785400, 39600⟩,
    ⟨1522508400, 37800⟩, ⟨1538839800, 39600⟩, ⟨1554562800, 37800⟩, ⟨1570289400, 39600⟩,
    ⟨1586012400, 37800⟩, ⟨1601739000, 39600⟩, ⟨1617462000, 37800⟩, ⟨1633188600, 39600⟩,
    ⟨1648911600, 37800⟩, ⟨1664638200, 39600⟩, ⟨1680361200, 37800⟩, ⟨1696087800, 39600⟩,
    ⟨1712415600, 37800⟩, ⟨1728142200, 39600⟩, ⟨1743865200, 37800⟩, ⟨1759591800, 39600⟩,
    ⟨1775314800, 37800⟩, ⟨1791041400, 39600⟩, ⟨1806764400, 37800⟩, ⟨1822491000, 39600⟩,
    ⟨1838214000, 37800⟩, ⟨1853940600, 39600⟩, ⟨1869663600, 37800⟩, ⟨1885995000, 39600⟩,
    ⟨1901718000, 37800⟩, ⟨1917444600, 39600⟩, ⟨1933167600, 37800⟩, ⟨1948894200, 39600⟩,
    ⟨1964617200, 37800⟩, ⟨1980343800, 39600⟩, ⟨1996066800, 37800⟩, ⟨2011793400, 39600⟩,
    ⟨2027516400, 37800⟩, ⟨2043243000, 39600⟩]

/-- The zone Australia/Sydney. -/
def sydney : Zone where
  name := "Australia/Sydney"
  initial := 39600
  changes := [
    ⟨954000000, 36000⟩, ⟨967305600, 39600⟩, ⟨985449600, 36000⟩, ⟨1004198400, 39600⟩,
    ⟨1017504000, 36000⟩, ⟨1035648000, 39600⟩, ⟨1048953600, 36000⟩, ⟨1067097600, 39600⟩,
    ⟨1080403200, 36000⟩, ⟨1099152000, 39600⟩, ⟨1111852800, 36000⟩, ⟨1130601600, 39600⟩,
    ⟨1143907200, 36000⟩, ⟨1162051200, 39600⟩, ⟨1174752000, 36000⟩, ⟨1193500800, 39600⟩,
    ⟨1207411200, 36000⟩, ⟨1223136000, 39600⟩, ⟨1238860800, 36000⟩, ⟨1254585600, 39600⟩,
    ⟨1270310400, 36000⟩, ⟨1286035200, 39600⟩, ⟨1301760000, 36000⟩, ⟨1317484800, 39600⟩,
    ⟨1333209600, 36000⟩, ⟨1349539200, 39600⟩, ⟨1365264000, 36000⟩, ⟨1380988800, 39600⟩,
    ⟨1396713600, 36000⟩, ⟨1412438400, 39600⟩, ⟨1428163200, 36000⟩, ⟨1443888000, 39600⟩,
    ⟨1459612800, 36000⟩, ⟨1475337600, 39600⟩, ⟨1491062400, 36000⟩, ⟨1506787200, 39600⟩,
    ⟨1522512000, 36000⟩, ⟨1538841600, 39600⟩, ⟨1554566400, 36000⟩, ⟨1570291200, 39600⟩,
    ⟨1586016000, 36000⟩, ⟨1601740800, 39600⟩, ⟨1617465600, 36000⟩, ⟨1633190400, 39600⟩,
    ⟨1648915200, 36000⟩, ⟨1664640000, 39600⟩, ⟨1680364800, 36000⟩, ⟨1696089600, 39600⟩,
    ⟨1712419200, 36000⟩, ⟨1728144000, 39600⟩, ⟨1743868800, 36000⟩, ⟨1759593600, 39600⟩,
    ⟨1775318400, 36000⟩, ⟨1791043200, 39600⟩, ⟨1806768000, 36000⟩, ⟨1822492800, 39600⟩,
    ⟨1838217600, 36000⟩, ⟨1853942400, 39600⟩, ⟨1869667200, 36000⟩, ⟨1885996800, 39600⟩,
    ⟨1901721600, 36000⟩, ⟨1917446400, 39600⟩, ⟨1933171200, 36000⟩, ⟨1948896000, 39600⟩,
    ⟨1964620800, 36000⟩, ⟨1980345600, 39600⟩, ⟨1996070400, 36000⟩, ⟨2011795200, 39600⟩,
    ⟨2027520000, 36000⟩, ⟨2043244800, 39600⟩]

/-- The zone America/Sao_Paulo. -/
def saoPaulo : Zone where
  name := "America/Sao_Paulo"
  initial := -7200
  changes := [
    ⟨951616800, -10800⟩, ⟨970974000, -7200⟩, ⟨982461600, -10800⟩, ⟨1003028400, -7200⟩,
    ⟨1013911200, -10800⟩, ⟨1036292400, -7200⟩, ⟨1045360800, -10800⟩, ⟨1066532400, -7200⟩,
    ⟨1076810400, -10800⟩, ⟨1099364400, -7200⟩, ⟨1108864800, -10800⟩, ⟨1129431600, -7200⟩,
    ⟨1140314400, -10800⟩, ⟨1162695600, -7200⟩, ⟨1172368800, -10800⟩, ⟨1192330800, -7200⟩,
    ⟨1203213600, -10800⟩, ⟨1224385200, -7200⟩, ⟨1234663200, -10800⟩, ⟨1255834800, -7200⟩,
    ⟨1266717600, -10800⟩, ⟨1287284400, -7200⟩, ⟨1298167200, -10800⟩, ⟨1318734000, -7200⟩,
    ⟨1330221600, -10800⟩, ⟨1350788400, -7200⟩, ⟨1361066400, -10800⟩, ⟨1382238000, -7200⟩,
    ⟨1392516000, -10800⟩, ⟨1413687600, -7200⟩, ⟨1424570400, -10800⟩, ⟨1445137200, -7200⟩,
    ⟨1456020000, -10800⟩, ⟨1476586800, -7200⟩, ⟨1487469600, -10800⟩, ⟨1508036400, -7200⟩,
    ⟨1518919200, -10800⟩, ⟨1541300400, -7200⟩, ⟨1550368800, -10800⟩]

/-- The zone America/St_Johns. -/
def stJohns : Zone where
  name := "America/St_Johns"
  initial := -12600
  changes := [
    ⟨954646260, -9000⟩, ⟨972786660, -12600⟩, ⟨986095860, -9000⟩, ⟨1004236260, -12600⟩,
    ⟨1018150260, -9000⟩, ⟨1035685860, -12600⟩, ⟨1049599860, -9000⟩, ⟨1067135460, -12600⟩,
    ⟨1081049460, -9000⟩, ⟨1099189860, -12600⟩, ⟨1112499060, -9000⟩, ⟨1130639460, -12600⟩,
    ⟨1143948660, -9000⟩, ⟨1162089060, -12600⟩, ⟨1173583860, -9000⟩, ⟨1194143460, -12600⟩,
    ⟨1205033460, -9000⟩, ⟨1225593060, -12600⟩, ⟨1236483060, -9000⟩, ⟨1257042660, -12600⟩,
    ⟨1268537460, -9000⟩, ⟨1289097060, -12600⟩, ⟨1299987060, -9000⟩, ⟨1320553800, -12600⟩,
    ⟨1331443800, -9000⟩, ⟨1352003400, -12600⟩, ⟨1362893400, -9000⟩, ⟨1383453000, -12600⟩,
    ⟨1394343000, -9000⟩, ⟨1414902600, -12600⟩, ⟨1425792600, -9000⟩, ⟨1446352200, -12600⟩,
    ⟨1457847000, -9000⟩, ⟨1478406600, -12600⟩, ⟨1489296600, -9000⟩, ⟨1509856200, -12600⟩,
    ⟨1520746200, -9000⟩, ⟨1541305800, -12600⟩, ⟨1552195800, -9000⟩, ⟨1572755400, -12600⟩,
    ⟨1583645400, -9000⟩, ⟨1604205000, -12600⟩, ⟨1615699800, -9000⟩, ⟨1636259400, -12600⟩,
    ⟨1647149400, -9000⟩, ⟨1667709000, -12600⟩, ⟨1678599000, -9000⟩, ⟨1699158600, -12600⟩,
    ⟨1710048600, -9000⟩, ⟨1730608200, -12600⟩, ⟨1741498200, -9000⟩, ⟨1762057800, -12600⟩,
    ⟨1772947800, -9000⟩, ⟨1793507400, -12600⟩, ⟨1805002200, -9000⟩, ⟨1825561800, -12600⟩,
    ⟨1836451800, -9000⟩, ⟨1857011400, -12600⟩, ⟨1867901400, -9000⟩, ⟨1888461000, -12600⟩,
    ⟨1899351000, -9000⟩, ⟨1919910600, -12600⟩, ⟨1930800600, -9000⟩, ⟨1951360200, -12600⟩,
    ⟨1962855000, -9000⟩, ⟨1983414600, -12600⟩, ⟨1994304600, -9000⟩, ⟨2014864200, -12600⟩,
    ⟨2025754200, -9000⟩, ⟨2046313800, -12600⟩]

/-- The zone Pacific/Apia. -/
def apia : Zone where
  name := "Pacific/Apia"
  initial := -39600
  changes := [
    ⟨1285498800, -36000⟩, ⟨1301752800, -39600⟩, ⟨1316872800, -36000⟩, ⟨1325239200, 50400⟩,
    ⟨1333202400, 46800⟩, ⟨1348927200, 50400⟩, ⟨1365256800, 46800⟩, ⟨1380376800, 50400⟩,
    ⟨1396706400, 46800⟩, ⟨1411826400, 50400⟩, ⟨1428156000, 46800⟩, ⟨1443276000, 50400⟩,
    ⟨1459605600, 46800⟩, ⟨1474725600, 50400⟩, ⟨1491055200, 46800⟩, ⟨1506175200, 50400⟩,
    ⟨1522504800, 46800⟩, ⟨1538229600, 50400⟩, ⟨1554559200, 46800⟩, ⟨1569679200, 50400⟩,
    ⟨1586008800, 46800⟩, ⟨1601128800, 50400⟩, ⟨1617458400, 46800⟩]

/-- The zone Antarctica/Troll. -/
def troll : Zone where
  name := "Antarctica/Troll"
  initial := 0
  changes := [
    ⟨1111885200, 7200⟩, ⟨1130634000, 0⟩, ⟨1143334800, 7200⟩, ⟨1162083600, 0⟩, ⟨1174784400, 7200⟩,
    ⟨1193533200, 0⟩, ⟨1206838800, 7200⟩, ⟨1224982800, 0⟩, ⟨1238288400, 7200⟩, ⟨1256432400, 0⟩,
    ⟨1269738000, 7200⟩, ⟨1288486800, 0⟩, ⟨1301187600, 7200⟩, ⟨1319936400, 0⟩, ⟨1332637200, 7200⟩,
    ⟨1351386000, 0⟩, ⟨1364691600, 7200⟩, ⟨1382835600, 0⟩, ⟨1396141200, 7200⟩, ⟨1414285200, 0⟩,
    ⟨1427590800, 7200⟩, ⟨1445734800, 0⟩, ⟨1459040400, 7200⟩, ⟨1477789200, 0⟩, ⟨1490490000, 7200⟩,
    ⟨1509238800, 0⟩, ⟨1521939600, 7200⟩, ⟨1540688400, 0⟩, ⟨1553994000, 7200⟩, ⟨1572138000, 0⟩,
    ⟨1585443600, 7200⟩, ⟨1603587600, 0⟩, ⟨1616893200, 7200⟩, ⟨1635642000, 0⟩, ⟨1648342800, 7200⟩,
    ⟨1667091600, 0⟩, ⟨1679792400, 7200⟩, ⟨1698541200, 0⟩, ⟨1711846800, 7200⟩, ⟨1729990800, 0⟩,
    ⟨1743296400, 7200⟩, ⟨1761440400, 0⟩, ⟨1774746000, 7200⟩, ⟨1792890000, 0⟩, ⟨1806195600, 7200⟩,
    ⟨1824944400, 0⟩, ⟨1837645200, 7200⟩, ⟨1856394000, 0⟩, ⟨1869094800, 7200⟩, ⟨1887843600, 0⟩,
    ⟨1901149200, 7200⟩, ⟨1919293200, 0⟩, ⟨1932598800, 7200⟩, ⟨1950742800, 0⟩, ⟨1964048400, 7200⟩,
    ⟨1982797200, 0⟩, ⟨1995498000, 7200⟩, ⟨2014246800, 0⟩, ⟨2026947600, 7200⟩, ⟨2045696400, 0⟩]

/-- The zone Africa/Casablanca. -/
def casablanca : Zone where
  name := "Africa/Casablanca"
  initial := 0
  changes := [
    ⟨1212278400, 3600⟩, ⟨1220223600, 0⟩, ⟨1243814400, 3600⟩, ⟨1250809200, 0⟩, ⟨1272758400, 3600⟩,
    ⟨1281222000, 0⟩, ⟨1301788800, 3600⟩, ⟨1312066800, 0⟩, ⟨1335664800, 3600⟩, ⟨1342749600, 0⟩,
    ⟨1345428000, 3600⟩, ⟨1348970400, 0⟩, ⟨1367114400, 3600⟩, ⟨1373162400, 0⟩, ⟨1376100000, 3600⟩,
    ⟨1382839200, 0⟩, ⟨1396144800, 3600⟩, ⟨1403920800, 0⟩, ⟨1406944800, 3600⟩, ⟨1414288800, 0⟩,
    ⟨1427594400, 3600⟩, ⟨1434247200, 0⟩, ⟨1437271200, 3600⟩, ⟨1445738400, 0⟩, ⟨1459044000, 3600⟩,
    ⟨1465092000, 0⟩, ⟨1468116000, 3600⟩, ⟨1477792800, 0⟩, ⟨1490493600, 3600⟩, ⟨1495332000, 0⟩,
    ⟨1498960800, 3600⟩, ⟨1509242400, 0⟩, ⟨1521943200, 3600⟩, ⟨1526176800, 0⟩, ⟨1529200800, 3600⟩,
    ⟨1557021600, 0⟩, ⟨1560045600, 3600⟩, ⟨1587261600, 0⟩, ⟨1590890400, 3600⟩, ⟨1618106400, 0⟩,
    ⟨1621130400, 3600⟩, ⟨1648346400, 0⟩, ⟨1651975200, 3600⟩, ⟨1679191200, 0⟩, ⟨1682215200, 3600⟩,
    ⟨1710036000, 0⟩, ⟨1713060000, 3600⟩, ⟨1740276000, 0⟩, ⟨1743904800, 3600⟩, ⟨1771120800, 0⟩,
    ⟨1774144800, 3600⟩, ⟨1801965600, 0⟩, ⟨1804989600, 3600⟩, ⟨1832205600, 0⟩, ⟨1835834400, 3600⟩,
    ⟨1863050400, 0⟩, ⟨1866074400, 3600⟩, ⟨1893290400, 0⟩, ⟨1896919200, 3600⟩, ⟨1924135200, 0⟩,
    ⟨1927159200, 3600⟩, ⟨1954980000, 0⟩, ⟨1958004000, 3600⟩, ⟨1985220000, 0⟩, ⟨1988848800, 3600⟩,
    ⟨2016064800, 0⟩, ⟨2019088800, 3600⟩, ⟨2046304800, 0⟩, ⟨2049933600, 3600⟩]

/-- The zone America/Havana. -/
def havana : Zone where
  name := "America/Havana"
  initial := -18000
  changes := [
    ⟨954651600, -14400⟩, ⟨972795600, -18000⟩, ⟨986101200, -14400⟩, ⟨1004245200, -18000⟩,
    ⟨1018155600, -14400⟩, ⟨1035694800, -18000⟩, ⟨1049605200, -14400⟩, ⟨1067144400, -18000⟩,
    ⟨1080450000, -14400⟩, ⟨1162098000, -18000⟩, ⟨1173589200, -14400⟩, ⟨1193547600, -18000⟩,
    ⟨1205643600, -14400⟩, ⟨1224997200, -18000⟩, ⟨1236488400, -14400⟩, ⟨1256446800, -18000⟩,
    ⟨1268542800, -14400⟩, ⟨1288501200, -18000⟩, ⟨1300597200, -14400⟩, ⟨1321160400, -18000⟩,
    ⟨1333256400, -14400⟩, ⟨1352005200, -18000⟩, ⟨1362891600, -14400⟩, ⟨1383454800, -18000⟩,
    ⟨1394341200, -14400⟩, ⟨1414904400, -18000⟩, ⟨1425790800, -14400⟩, ⟨1446354000, -18000⟩,
    ⟨1457845200, -14400⟩, ⟨1478408400, -18000⟩, ⟨1489294800, -14400⟩, ⟨1509858000, -18000⟩,
    ⟨1520744400, -14400⟩, ⟨1541307600, -18000⟩, ⟨1552194000, -14400⟩, ⟨1572757200, -18000⟩,
    ⟨1583643600, -14400⟩, ⟨1604206800, -18000⟩, ⟨1615698000, -14400⟩, ⟨1636261200, -18000⟩,
    ⟨1647147600, -14400⟩, ⟨1667710800, -18000⟩, ⟨1678597200, -14400⟩, ⟨1699160400, -18000⟩,
    ⟨1710046800, -14400⟩, ⟨1730610000, -18000⟩, ⟨1741496400, -14400⟩, ⟨1762059600, -18000⟩,
    ⟨1772946000, -14400⟩, ⟨1793509200, -18000⟩, ⟨1805000400, -14400⟩, ⟨1825563600, -18000⟩,
    ⟨1836450000, -14400⟩, ⟨1857013200, -18000⟩, ⟨1867899600, -14400⟩, ⟨1888462800, -18000⟩,
    ⟨1899349200, -14400⟩, ⟨1919912400, -18000⟩, ⟨1930798800, -14400⟩, ⟨1951362000, -18000⟩,
    ⟨1962853200, -14400⟩, ⟨1983416400, -18000⟩, ⟨1994302800, -14400⟩, ⟨2014866000, -18000⟩,
    ⟨2025752400, -14400⟩, ⟨2046315600, -18000⟩]

/-- The zone Asia/Tehran. -/
def tehran : Zone where
  name := "Asia/Tehran"
  initial := 12600
  changes := [
    ⟨953584200, 16200⟩, ⟨969478200, 12600⟩, ⟨985206600, 16200⟩, ⟨1001100600, 12600⟩,
    ⟨1016742600, 16200⟩, ⟨1032636600, 12600⟩, ⟨1048278600, 16200⟩, ⟨1064172600, 12600⟩,
    ⟨1079814600, 16200⟩, ⟨1095708600, 12600⟩, ⟨1111437000, 16200⟩, ⟨1127331000, 12600⟩,
    ⟨1206045000, 16200⟩, ⟨1221939000, 12600⟩, ⟨1237667400, 16200⟩, ⟨1253561400, 12600⟩,
    ⟨1269203400, 16200⟩, ⟨1285097400, 12600⟩, ⟨1300739400, 16200⟩, ⟨1316633400, 12600⟩,
    ⟨1332275400, 16200⟩, ⟨1348169400, 12600⟩, ⟨1363897800, 16200⟩, ⟨1379791800, 12600⟩,
    ⟨1395433800, 16200⟩, ⟨1411327800, 12600⟩, ⟨1426969800, 16200⟩, ⟨1442863800, 12600⟩,
    ⟨1458505800, 16200⟩, ⟨1474399800, 12600⟩, ⟨1490128200, 16200⟩, ⟨1506022200, 12600⟩,
    ⟨1521664200, 16200⟩, ⟨1537558200, 12600⟩, ⟨1553200200, 16200⟩, ⟨1569094200, 12600⟩,
    ⟨1584736200, 16200⟩, ⟨1600630200, 12600⟩, ⟨1616358600, 16200⟩, ⟨1632252600, 12600⟩,
    ⟨1647894600, 16200⟩, ⟨1663788600, 12600⟩]

/-- The zones that can be named. -/
def listed : List Zone :=
  [utc,
   etcUtc,
   gmt,
   etcGmtPlus12,
   tokyo,
   kolkata,
   kathmandu,
   kiritimati,
   marquesas,
   monrovia,
   newYork,
   paris,
   london,
   dublin,
   lordHowe,
   sydney,
   saoPaulo,
   stJohns,
   apia,
   troll,
   casablanca,
   havana,
   tehran]

/-- The zone of a name, which has to be spelt exactly. -/
def ofName? (name : String) : Option Zone :=
  listed.find? fun z => z.name == name

/-- The changes of every listed zone stand in the order of time. -/
theorem ordered_of_mem_listed {z : Zone} (h : z ∈ listed) : z.Ordered := by
  have hall : (listed.all fun z => ascends z.changes) = true := by
    decide +kernel
  exact pairwise_of_ascends (List.all_eq_true.1 hall z h)

/-- A zone found by a name bears it. -/
theorem name_of_ofName? {name : String} {z : Zone} (h : ofName? name = some z) :
    z.name = name := by
  have := List.find?_some h
  simpa using this

end Zone
end Timetable
