/-
Character names: punctuation and symbols from U+2000 on, in the form that `Text.CharName` reads.
-/
import Docsmith.Text.Packed

namespace Docsmith.Text

def symbolsNames : Packed := ⟨72628, "
 $FQeWx@W2ZCCIK*Jq$ldf^:BD8EyxK^R,OgzdkOTxYh0p@H&U#m*&#VLs?|rL)h*4yp!sW>4$kQ%ml)6(Ic9e*13$!Q)KS~v>DB
 )HJ_g)?^K!0%X$>&]?f,<Y61<pZn*z?R+v;85>s*9>XV1e+_a!JG~ZQ?oQ3gIA>_F%Vq8]SI*PMt?ZtR^fbqwlRNKncm<Wi&J)n
 #q;zaBpyaneP?uDZ_L_VD61BoKbjgs|7+d05[o6B)APw+jUaAo=K6fY4_er@q8eoP1Ud(!y~u7~^0[bL5NZob=5<D#kdw(.R$R3
 i[c%pm>2^5LiXhGi@w(.DOv@!L|id[W>AVo3oI72@^5JpvWR^]4M~bD,Zot^mPQQ>l7aLro#F51w*SG4F3d;v>xW*|uTP<Kd>:k
 oYUp1cv<n[!lm_!l(;IDB_I*^nnp0:~Fn5H$5i0+xB7|@iNN1L0fa45&%>3riJBS3.HU0Ah?h|H=;:l=kLEP&Hp)n!H.lfY|8=#
 M~z%jqvR!RNfUwjaUe6uga||IKciMgYaZF4?0E?85pY7Xve6B_~w4H4=<j=~^>(mjqfD3,zd*n1jpZX_Lm.9y!%wsZ6Ls~(O:8F
 Cel?>[Zsa)L30uIMZb:oml%K:.tf>[w~_vZ$YQS;p4$S05oV.W9ZE9bNh2==@(o2xdM<TBbswUh=APLvHa,7tML[ZwSN|Cvm3(k
 PYiN>GoG5YN~el?;(YO_C1TmsLOLb[bB#wQk1]MiNL(J!4_Dl=5Jy)~OUAL5i@8P#,6%iOMk&qQ7RAW1y;Bc6h+Qh&K&bHjV)NC
 pK+WHma5M:*I*t0U:xqRhON[zoo,lHqn#h5lF8|:hL!7*eQnHB8syofH]iZ@ABWVOZ,PK[lc%S6)WZa!Om:FQQ=L7g(*vh~ULB_
 vPLq=cb=J&@Zxhb_LyNQr^a1p|yk6]4,AhBjO:f3s]MP1.t6i2%H%F,VVcNd9k38?pN=9mftZpmM2][F32Q%C))lmR2VC6Ws|8C
 6<F(@.fpCc;18,#ZMV1QV6Ra[NSi,W,tNDDR>x$4|<vCBWU$hs,pXku[D*V_7sbO$jXPtOXB)axThJYuJmO(4jyTIU7|_aTvP)1
 q2Jla;kAF$x|TaaB@s>U+a,0aKM!:L0ki_mJW,K<6A$>lb3#G<B32yE,NER?T2;[S^GA;s7.;PuQ?HDn<~G$_zhcmASC4KwRyed
 1GgFxb3~wPydTjf6ZS$x]dLPM1ziEVWPli0lCKX@)jCJG+y$80t6Fa59$Vb;L.LE.V&=0m49SH5F:Z],zfLJwMk>BgI*;t(FTt[
 ^@uw+NFnvrK<N;+YoMLBe^SiDDjc:(u49W|zPXUSP:6tiy^d.zf[ooY=eAHWXmR4O~+QP4Ps$P_~Otv7A0Mo7Nq2X_u.VzWv;g6
 NQ0B!6b,SxWqU,uz40>HnVSc#2eTKrJGFi2lNaEe[!W_u=B@]_y!3T6QOX4SHO=o&[;u=GbsJqT)cpDsJ5Uj0UuskO.LGkm~,pP
 2mfRwOck|tt4o[oqi2MPS5O.9Qhdq[P&xO,NxJ9q7&V?>[*!@86x<HxLfFVC7]vGC1,&R.en,5PuMa!qpgb!O?UflP.U|VV,Kwv
 tbe:P#0*%ISxsDF~pdd%TyHVY2]C|$8=))1pj?!r9~a@JAb0OS8Dl=?zG!Xqpm6khkwG)q3y,gW2|j:2&pou699~6*,lAYwJ:pn
 HgHiX:*zSOo+(6pnyf8aQ#5W[**)m7e~)y9u0vIyd9dphkhMd*pl1=8Nz><SZ?L_H]JF9NU4g(bX(*VpCU2r<5prF]S[HsD0kTt
 HECC:RfItDP)_#qw_V=P4&~O|O_+Ow7:RQd&QKDIORU(2imss192G>A>F*vuLy_>z:+4ZDJ;:5pu5QPky7@^Z.1xzP%LYm&V@K9
 =WwQ;hS+429+.]Xsu>Da<^AZw|_9MS!qUCKmpGHIA&<|.@d9s=OY<GE>2HF71TD]pNN(vxkf#5mK8.qR@Wnjj[BTX#@RksE)=M9
 k0:I,*]EO.iA75&0&.1KZEbL]RLX|otfB&0WSC@zI5J)q+z+Pqy<8_?l!E,dwzdR7fllt=.:H2kj^2TMz>mY[=5P>((mazMc&VB
 Q4ck68qr%rn.JJnYP|2NL%DDHvsKSmBqRYDDu|;OE]FUHCR@RJ_NQzuCe(oK<l(zv9*u?~C3!Fm84>wpYc7F5d83m%eK4R]h+SW
 PbS~?Y,H%VAYj9C&(;aE0ToIiKQs2_MO;YHL$qt?&7*6o*V>LLGOc3|phv68rh@evj(zfb4IGfq!0xA|TC<#>49qkO;[%R&MR+Y
 E1yR$+csBm5Ii(x)X*y.S;6grBDE?.TY^*IE~s<q*+v8A16x)p6%Y*gFv;QcH!9mC@a_!er]Xh[0?!;8@m8xpS<Sv7y?KAE~G2A
 ?DGkb0hoQ09%MP9IQ=wq>r(dc]P>jS,E,~oD(]V)vzbf>VKBNZ|P6GWpW~qmzF&Kw4tB6EU<<^x@Z@[$dc+T8cq^^5j=Z:O.(n@
 r5M=Z;;yS,Qw~E<Z6J@Cla,5CwP<HLy&V1nU0[i9(oP+RwG5!sKa5w3DWelAzb!QXh?M&D]Ik|~65&*HUC[Bvi<4*tFaRE$Li>M
 we5+;sbw10e,A$R~k&3ieLpIkTnR:H5+DdExA(PB$VR,9.Z8fOPr)~rzre$Wj@vle=XuAP7pPS8RRRKg48N^1H~BT21PVoGu(Du
 fPtcKHO*<HD9&Fdp[pyqBOAY~Fi$LK[nX[DeUqP1Ac&%Sx8|P@r<Dw(_3Pm;s3!@E;gsdQ<V%Lt(.&o0(lKDed]l>KWAlX3(s,5
 6gh)nQ0yBWU)W4yNOd%VB+Gv#aIoQ$H]:v^iLqkyH6ik!.ORNkCh#tj[u[IGeWJg^ElG~4]Oh_&z9Qp?X]AN=$?k6yJ57l;(@0d
 oE$::Vt^F_c^@_eF^v4y;~$gm1rzAWFpqX5Bvo>LD08sRC$gKW:s[;C7XWU8.@j~@u(>m|[j>VPjwd$Cp@glw@GlB^@kuMX2~$p
 <p3k^PNtllz>r.G<|0.qi(Kxp5_j]6Ue~p*)dOKBt%(;:qP=[GV$>:e@Tej@xCfHlQK|)lvwC(WaCf@z%iHo#[03<.eEJ*eN!]~
 MFYh|ZDSmOl8T[^R^.39&J!jz#qN1MRU7:NJD1Evqa)%::W&+zZKCsQdEM9IfPCf|s=8n9?UyM<xa$7p+[L0PejvdZCiZ627;QD
 El!H=%s6zz,Sf3AP^kV^*I|!ANG!y0>pf28vfN18sdkBO9ev.:)n._uzI]_c3^g9WNIs54wCXAf2bv#WJuR1a|]~T0P)J,:?UV_
 $>LqY8Bg&?H,B?CfD#u|3nBIZ:P^,_C.,K.&?hcq0_&#lM|Qb1vbl51t]r?0O:#Fovxis?P&M!fMeAN5,TO<ol0*lRQ@jv7YWfK
 <,CmGh+b*%;s8>n.s::s.ayq):A$fv=:YJ0mJFtY$IKWh4<__]H2GfkPa^ovR,459l<!aRYuS|6cX&W;@,.].D~K;(yI7fJ7Zj2
 NfFl2;uS8!Bjs[^@:xfZQd4W&u|EHsk6+hf04e%Ph?N|8rUU8~UQ5|g=(+wb#MMtOv|_M:8Jb=M)k2q<~4,4RG2PI=GfiE0>aeb
 3M+hZzlpbyDVx?D7N^[KEEs;bq>4=#%MtM|IXPguAjvND)>$jsyqH|:myc.LDIwp833g?uy3R.+V0n8n35?X!58AeoAJMFrIA9I
 ,pT+t9mL];ThqN>J2.U%rF|zey#G*VH=T*|@&t%YJ6IRq=W&~F2wn1<acc@fZ0m30pbP7&pUS!jCHzwLf@ms3U%S%GiRgG.Wm2F
 7)6[f$N[t,yEli<oZ<#0h[p6ONq]OA7<uTjEMh&c:1p+[^9%m6*3O4C2z]H@cu;5zNqLD#n+*<ug*<apB8&EN^Me?clY+AVk9J1
 wV?.l>:%ebcr0vR;IlY193y:%&VB5Gf*4]m#p4nbiF|.GYNhV2]1&ULS7>E88Mh!a(^+Xl;kZBKoNVYfuy)C$a|ym7lQz!9Oz]q
 LG_IF;A,kS^@9Ixl>klnz%>Mv~gs^#|mE5%lJ>XJR(P9a2crQM?fI[6>3u]d~x2?j:w!M+RHDcdSa2ryt6jU3>0yAa655=NY53F
 u3z611FV9(hyyV057[Cb1DeVJ<QcgR|aWwzGZzqc(zOVUuGE97d!J~$4;_Pjyq?Mxw4!5[=_]rv,^J|:|Tc_k+M_?oI7[s&<n$.
 <k:?Ayt_%*g#91ya?>8~$IQ,u.(EupZ|HnZyu,UUqPdw@<;y#]u_f]kLn<io2oCMJ#TrD4xkRoMAX;tdIP^Nc:fYddz[zAsq8jR
 pvcoUSn4Y*,mps]C_S]8tI24fWq440&C&_BS_T9bgG>|d%<8V64]_cv~x*S2<^W.F)tBx&$k@GYa7JDRBxE>go(ysHtqtBiwpQ)
 kH~rTb[_lzJ~NC]I11$P([:[F#C:m2F>|WwrUxG8kzmhq8Qlb5,DUJ()rbkC@U|gvJ.=MtBgSXWhZ~qpfF7XN2%1HW%~D]B^ISQ
 .PgmHdmPtdn_Jt+&To85$<Dj^A;X(3h=0sJ8!wle_enJkUayxE)rQPRn+Y,w1Ef>GL0w5tj&GMa~N+Q?7ta[B@.UazCM3;$M]1T
 =m@s;27m)EpszAB4o,)Gz?9X~|TO&:^C8jTAPEJgVg7:Lx3CXZjGNV$[@Y~#~_qELp3<^0,10Mzz$Z[jxGC5*4XoxB[i@jYW_=$
 hOXT(7[[C(w1DiINK=Y(e!m>NnHj?<^Wxndl[qqCL]Eap2nyh$*h=DNnHiwj~u2M1g.><BaHTPgS.3dzQ(GOJO!b1s]Ug,a^Q)q
 n#2QD$J5G:qQ60&l;t.YuG?.CLaV36M?5OdLY17O5eh^dpAqu+(im*SjP?*5J#WT|Cp$q9W>H~?O1F,h@ht:H1*lEYJ[LN38|js
 2Z3Y4r@;S6cJ>f8Ixa!,0,V2Vht<qu~%dc,EoLW~Ws*m!,r.F[gw^!A8~,HX9jbb^4V^7%fW|dRN:$~FKQp;.ctZ!NE2c[KnZyO
 o2y|4(s!6vl&RgN8LVUCoI<0[j~V(x%gs2+Bvvba@SVgf~|n97;stlp=_xVBI+#pmVRb~:Zn@VB.,poySYuD:$vV~09K:RXgGHj
 An]Tgi92l12f*6f~m+c?%e]OqhyLyy|[aN(l^PN..1;k+E&8wIot*3*V]w|bZ*9EoB_N7v=dSbL@K<gUWqjra03)Ve3K#y~$T!6
 X<Wm*.kmmzD!#6VW%w7?ey(CLkIHycnIKU^3:xjyP4^AY3@Cn(4g9PlP2PT^o~Mvw$3^8@X%v.U5>gU~_]?=5nbKg7H]~ILdD,r
 @tjO>~Lqki4W)BWB3py2Y|S&&GhnB8j#DPjo!DA6#M19^ZwnX_!+h8:#.;#h!HLoB5^fbmcuV<ZT(I>VnXZ@uvuDL;3D#Mb~E:k
 X488tc&TP4mtUtBKkmWbu]gqVH$Bysc]zttF5UP[CKE1Su1I$5HoyQG,LcT@GGRSRBnW2_NX!U^~|15=2~,2IxVGbz3FuS.Po%b
 %BB(8QX93a.sW~o^X#p%JDq3I%GiVO^>_B0qC#Aq)$$2qaHh$H&:v6PfFpde)fmtYWYxydy)]b[4izHuzp6kA^~XAdxjh.p*jAh
 ?Z9#X%##v?jhd%Xkg8Sp(8ngtX|*[g[_EkUqia5q[~P0t#+&QbAK&^ni%^gFlUdp:;g:[qY@#q|ligxCbc|KfJQgc;!i]7G:Gu3
 p%X5R]Hj&#:dfbW]5um7Pbm4)$_eGT5x$BTJsw|nDq6QJ[;yRuopswZ$fr]OzXQ%AWbgShF;bvMML$:?B$BCtqfG+!i0Jz#BZOo
 unY~rVQUnw3AE:RTj*4THSkSOK3kp4)s?74DARM+~)TJ[OFSSB?eSND3dDk(rC1JIGOKPWIlAR@cvn>0Lx_ZFR[+3qp]F~iF9Ef
 6*Wp#~I8PWvglt+qczou+>&o3&q%bF,Ug>k~fx8OiLbJoFxVh?4sXivFLdB_f_T&f=3XAAqf?Q%xioav@b:iBJ,5zX4B0sV7Yr9
 #9OTJ17VS]9*%EzHHO9;3228~VEND<+5Qcv.R($?LoZI4%hVR$MPnz[1aQs1Vc]8&>TA#yjxnL]^FaIN|I#AGttH3<gJ?c1zsfo
 FsR%oMVzD@a=9Ti=[lM$R!Ahy_%aXxU^z|#?1^U7+.^<LUo#8B4i%|arF~iY]H7emMZSx(D$)VS~eiy][yUC]P_3gX[g%w8^Fj3
 x|T<i6YT2.3w5|_&B>Fdvl^+]~p7_A_loY!h9T;RbvQr(Q;hzvz)G<$R5fsCk!6pug30vi&&jAyD[NkV.S0A$_fmMJLA;aN[MBu
 L~e_Im]aRqi=.<cr2*V0wY_DQFfInD1D%$a_BbxG*vgD&[xie[wWs|o|+hS!Uc[_lS6*(26~w|K,RGp|gHyH4L^ML!cvp(xZ>2C
 *JDKi*%rg~CK]:)!w9[KZcUR1iUxmh,;HYg4*Nhf)E<&6%^M$r<uV|6|[LiYW!Z&I~(>dgjcbBx)f4,,l21e9A!:Ns5V&,Z9q@.
 XdRBz.4<Q3e|5~Ck$r!T!ud2SwkyLG[ZBH.xBfep41YMLqSHy[G@AASJF+U*Bd!$mqEw,qvmp#0_Df:_NoLF:H[.I:)Yg*g#Y]@
 Xq5N+2:oB<wz<UDh^:C&c5o4FS)h.,#+_nC<_dxyhqT%p~hvnw&bRJ467^GsL0gq5wBksPwnt|O]cx#=i2YTb>$f;^;aJdm1ui<
 8N)+r=_)r1.va#$BCxJ^dX*ZRs=KGkDxiNF:05PBmDBT:UYr8#0LW;:M9KUi<#5wKz.=WIhc1>|h<?%ReOYGpsej=n]mxtJaz@.
 W_LJ:7,B2$pT)r3VEU2PGJx~@2X(,>dV]+Uwc.8~GtBQrohX7@~jv0^Qaf:q&>u4@%w$6Qp2Dpa5?2RN0T):,f;;>lb&7N$]x.H
 :eAN&OKA)JJ<*M&I)bV@6DwK|G+!|rN4tLq?#C(7IN^?pF_q[a8zH3P]Cam8V>UP%PuwB9KD(LpzqB]3pyryBX,<:](&)hPXY3e
 #b*d]Xxpj2CjErW9G1Yr<l>iw*N=o?gU:jzi!5h;u*fiT++7qgJ9oXYP5w&18c!Hu;NG#XHOeM;s2g;[VfZF:*WOAmNggFAIB9%
 &I?9R)h~Xz5BVC9dnHWv|=X;4@sN0^jB#dvf_8%E646+816T;FUxu%H.=!F5|xBb1LjjE6EhqBfShsjRZl3|8I;VS3@YIcdqO$?
 +S~1y2.Wq;^s0=K#ck>!Y;kX%2zi9KHo~5$y1[35s8RmtmKAhL>[~zYz#;p2vMHU_*MMCpPc1w~Iz^&&mpJal0Dh.:fSiHpaFJ|
 YnFfb;:dCXu1@bqBxcurX?N&!K;i3aHoq*D>^sPOyCyKzK*LW&<9kyNMDu~IJ8(#0q,R$fqg,iwTiE3Uz6F,of@!4=]p#?0,eWp
 d]yC.u#Y&LvC1HiN:(50xj?CT6tk|$cKbR3R^T3G]dsg=WP(p#h3I|RvEb+!AudV#@OCFc)ok=Q,OQr$,|AnC$KUr^s.jp8,:g1
 e_uEvzb.[~<rG$6$pfe]2Q,nq3Nj_J0zWmmTy40;pl[Vi;<%C5P5#t4=pN.eKO#3J~b&3a!fv1c%.cU8Yte&IF+NRj]<:Uka:6&
 cu~OaGAU6?LG7o.wzWtg0=[F,Q$[DRS<bcgabZKEyIFWS%r.+!oPe(plr[..kn1bo4W2~<OpSyVhI@+D;sL+izq5C;&?xtkqfB8
 gCM&KtoZUD_&@,(fl+1ZxXWPMIit8LXjpnY~=nYKI$F5wYF<rqIl$gr@UHP7b@#c4C%FA5b,EOcnef1kuS7P,OSQa9YE)yON5]!
 EgN6rtE07%2;QH8H)6|(9ZqARj.F016B4iap7RvenhXD|,^!L*WJ>r^_=i9wzkSQxaeDTYU,SpD:ShAYdvA:)Z*~eozLZ]<NRP*
 t:8uM?z>J:),DV,jjjm=?Tyl3.AcZ<jY]KJ3Es7Q<v(GL&how02AjkHR^U8c_xZoZmWj*Njf.#(fCQnLHvJ,(b0*l[h$PYc70%~
 Zp]3GRGE=zS3Zl$h=E#M<mD.OXsb@hD.2CTONq&E2kp$zN~or!W3ou0LWx8c[bOhZ?Dsktkrq&o;Z5e7L:w1p>!y+HFZI1Qk!&u
 V|XtjEwp1NBm;YcQkvQ&&VbVUG$)&Vo8nH)vzCGo.1Yj#,|^j5R^#)Pw08=TAT38=p,lbp6<kKfk,^I)dQ:Hvu3)Ro46]859#ui
 7n$Phbno|YVfZnB?+ViEUl2x~X@o^;c5dvTa!Ao2J0e%AF.w;#sr=!2vXw,ep.E%Eob|$08usNCZ>a_G!q>#a:|lY,^sn?g*#;J
 0t<Omc)04~bR#Fj%*4X92Z~:4mINcDvd.?a2mDIi23pdWP58+PiJquTE*x2rZ,7$7N|7=yx8K|?LKr[mxBIP0?H~zh~6,c.aO1:
 +Yh>+0>IT&ru0;xvWgxXVVK(+L*4<]neP~7E]nl%(SwfTD%4#Uh=I_BWnaoh~3e>Tl~=K6FL,p&ZiHA7C&:|3q+:k75SY!)I0*=
 c68<?%$5gx):HIFR+axH@])ccQ)s*HQIeWf%CRe3DKJtO*Z>PB@;[Xxe3@tS>lViExx5.@)!|nl(~XpB[s|s]^D#Gx!?Z%i=p6;
 B268@T<uxlr7>~)C@Q+aSo+n(spWW2i5(hl[aOm~QHY?KCjpgK8RWn3^+La_B5k=)kHx]RxFYlH0b^0U(CIE:rjsq.q$*|e_RWn
 d.qOqGwM+l<v#.t(|KJ+w;:AwV56|3Nb1f|P#qJdFmOn~LX!)$KcYUZwsc4V>yh=~^U73)eONG_Ae?QD#,vur.w[#+sn1xsU:6q
 7fT>_4.gWsr!@Z6hj>gG7cc>IwKE(DeOZxg)2wmwO68@V?DC5,+_U3<eSE@w0mb~L@MP>k2bg6BTa6Y@llvE+n3a%zVshIGDz<l
 0NvB2>.G8KQ4sG_We!4#Eg_Xj6u17cYT7cL5(pKJNs2>Gn9=1X7G5t[DShpSl&VV%8_z;DO7!3t9u2a*Y_E8t;:fZeEk:PZJg7F
 eW.@3[f#rxNu[P$j)pXbL)Z7n+oCF#p8HE4kyx,p63:QW1?K|d3Fpp+j!&8[|O,?j38)C)+86(bx4%JH!l,!>)kN5uTi>;q9240
 uzY|=AJ)W$rj11OKPm2>asP2)T*%:x0~t5QZ@YN1s>uv$E6kOwXw5sY]:f?Kz1L|&&OJNQo~U+zf|~e4KV|1>q]%,yM@l@$8feU
 3x?TH~uka:Hx8z%9@qW6xysj#;X,UBoUL.VVG)[XD9^qSWF|,z%o+8oc]VJ+tY3h:%WuPGIHCY96+m80#xaERq^>z?Zq^Dn!#dO
 DiOTYit:uGJQ#~DxC*6f|e]A2ZWXCc$QRxoo1bpYIMwu4gE#>f,=3eT)%LKlimSLcE4#_%XKVRt&2|$Gm5^Ug$of1%<2:S9=LV&
 BEx@bG^MEtynK9ZC8t@^HRYqci6$mr$aci1hv[fM)~ndQvphu6,.Pi8(Xb!75sbDhk|U?viI3;s;IbTu9_]s~tJN%AUKOQM)3pU
 ?gLujJ^1Kunfjy4Ln,Te>p4.,B;ePR%uzDRH|q8lrhQFNZv7E~d>5MpF)r7bDFu:k6R32+|WjkbK5~bK5?Ae2%fAi(uR*%)*rxT
 [uXF_<,Ot<N:8L&odWhBeghADH$hxwK5kXe;2i=32Ez+E3hvRqTt2^2nu6JXXSl.XtUMb5y?;$Smm8]&QE__Df@Fl87wFZ:j2Z7
 =m2hlqg~9J50KaqdWu]bUUK~AXe3uWB7pFOr9Z]Jjz0,nWoJ.wIwgq3(:_[vMEDmc]:myWB;lsZak%]4]I~;EDA1.wl>gZw!<F8
 cOl^5f^QoB|U:_L@ixg,;_5rkv?An)pwO8rFS>@Xjzrbs!@u2PW.m(3ICUbo&b|4G(#m.*]xM&&w<9vw_?~_#kg>@6@(8=I4e[k
 CS&Fq$eR<?@rF,fity;tTvwKUs9N(h>@z.ruRqWnjE4R|KXeE@dcxyo&AF9;auO?K!6L!L.WwY.jZTk4Y_2&0Nzwx>ZU3E@+,Hr
 ICjev9B6RIS+!4xd4H0:;,!KFX$vlkZj9,b5p40l2lW@KQ.mhx~t+bd>?gFvU.+%,wc4VD)H&y8i.!<g8mztpFoaZ?!ZOpbw7cg
 n>Otc|#<w)Zwu0mR#xho+o3z%!fXeg3yyVT[uOU~CSSM9l)[5Bzh,tj.P&>wrH[7t6U|0yRLmNq2og;];n%qcBy?|?V?P4k4Sg7
 $aX5s26!PKfO*98sfy_Waz1k+tO~*$veedR0h40g+Vqq6y*[HSITt[9[i]_<]KYGU],*VjtQppN;nzO.yB10nRDA:c)<&dQ);m.
 n^h,NgBcYRlO1dCwV?;B9dn#rVSC=P38a0!~%)hzv3SVrKzwi;DS<jwi#yO|5$L#F,d)=QuU_|nxsmrK+#0%2QRxjYUE|mgiLl^
 3OSDAxFI+:ZI@BkV!:%hh[$e]N;rT9Zny|Jgmu(k8BuN&yVWSx7d^Yy0fvI,E=rJDs|458qlwQa1M>i^%DzE#j7%v@<0D|7I><n
 Ey5hioxSXhTW[SD5ar3hKM$%B@xWBz4d(dH8yQXs[8a<g_94mN4I2[96sI|tBf>>p&~V;zsnQK+NJZDn^8?%;|XrQC,KlxLJ$k[
 f>6C5?Ew]nt^nSq4eAO%Y8ojH)@Vg<IReKeiry)J6ts<j*:$$$X!laWrt>U1Jr![EL1M1ZFEs#+.g,s(.7l:%I6I;v9?DowN,Ph
 7TA|Vh7Fqm0pYinJ1kI!fSCJMXm%m29)5e~J#]&NK~)Jt:#W]sU;JqMQKz:~3?)YMZ@:26m:qURj%,bR,f1I[zI+REJA+qyRpDb
 z)5jYF[qo+QRz]E^+VqvavS=(uLkvk<=En<S2j0GlHRQ8#SgcIMa9gQzZ1i)9M<22r9408k8=f#tk)ZR9?v9Y+$B58A$|v.<kF(
 zB3$,5n5c%0Lu3@oF]V4_MVW|~Fl1!6]x%N1OcBtFJsJu?6_6,TXM5@;n,8,%$+):rbEVmd7B*KCIWDO:&O?@_tB8~>PY.(rCwm
 :+(%071:_zU#fn)No8]a~=dW?!,(>&,*Pl@8)hPPfzxY4me&HEjmAyn[surFt9(bF:Sgg(_lh5B&kI^;kqAgt]^gAZv)QmDYL1F
 4*;!hH@P$<K(kojJpy^R,KlxL,<#@ePg*[*Wi<V+TX?.01[xM9=ZCBa!=(#$dN&)snET13wKwU(QO2h9LaueAWX,GQ:]=|w8=+q
 fs~aLZJSFK2s%<*1UR^,6T3JWAi!oI1F6gK4HE,uGZ;7k;p?9o~XY&_;Y:xjQW$H)Utt@BrA;0J$Ut_hQesX#<py(]Bt$3<g66p
 ke8(I#PE8:>PF?IbR?jDz3P$>K_z1)7<8*|#%uBSv?9%ryA>e3THFcJ;9s%F+=Yi$brh3SyEIf#$unbmGh8!q,to4ap)YK~egB5
 Ec#g;7Pcm3n[4c4uUwVN?Ffkwn[Rh<Dy[iYh[JM]TwAcwCjvz|7c%;2.5F#HU!#voh<SBmzKedd~KBK(_+a2imLVMMca0l]=y.3
 ph_S!U9.,Vxy2DXl?a#@%*?aQ<02^R6>hAaJ)%zv72d,%pWjyT$v5R!jfZ*@I@Iu$zr|?j~1w?MS@AU)Xf<d18h:uOdFD2Yn|ea
 KnY0F<OU5P$ys|VX27Az0Ve3qMeu!_:A]zs;FzGd7x8j5%|.([kBLhYZOQUMjgWpuj@Y>4QQ>Mz320e:i|h|[$aMel).EVuo.:z
 .6cmY$zIaLkopZy+.zehL??Zg[Z_wX|Xn6DF+1!wKIkxJLK&MVed]I]Xv7F]AIGmr#H2r31JhlksR.F)DG<sejw3lqQj~RBt;HL
 1U<NHO^NM%ag]mo.vd(6<^G,;CAEVs~iQY.0FSvmG~y(T4xeAH:Nta&8#GPv?mnBrk9y?nf35x~[%p1dujr[%<[HmBHK&Hcld;j
 COjAoZ?h|@7~yNzuORPFT4<2@W8R(#CNh4y(3VlyaZ!6q_LV)DNMw;hjB_<uI))1gGY*!<^TK1HwcFGRE@ETf*T[,u61g:@|>PN
 |9H+=<GcpqwHJz@QHw@~txkk_0nsogol%#~qQ29@&VXg4qp.+3H,b&f3ClQ^)EsQV%KHEJ=cWKlG%t>vYRh*f!9>1D.2Yfd!V:|
 f|%G)LYwL5aG_T2?19?j>jiIpkvz)4yR@HMF3&VNKgPWVO]a8|Ce[tTy%&z&9nC3JONHoI|CDCR4ajldKjjXv,#.?sYW>!v$B>Y
 5(VmBXpZ^6IPd|?Qp7bqP$Ce5Fl)cN_9kuABsSIueP9gRb=cFlQ~m?V;vb:UtlJ+k.5C80(H:xZ<7n)V%ETxf(NnLiSn:_BgAcc
 db~u5RX4QLOFPWz^+%<v$hbhZyAIlwF:5nW;=j0!tv[alk:|XFrl0]bnoezpiRrGxq.IZ|^6yJ+X%jk?e&063$Sk;e%PtnfVCdt
 ?DOLsu547a5o=<yLQHiV>^h?q]vXq<mwLwM.T%P];T~&a@pvI@_dtB2~m^nCs$lV14aI[8&2ZB!34tHpPy!9bCycV|&YS>f)Yj@
 *Gp@CB9<fRg&5OX@=!.|,5IkX>VVC.<kms1^f?s&<,)#N~IoO40ayW[AK<Fz3^R]C[ydV@xyVMGtxj5(0=)Y,8J&UrSMHNh^MsO
 (iQwArEm,0Vy;kac:oa2&oEHSdCMp2H!L++@VHUXC@ccWec*!%&DIw9G)FAoict_4V;3G9L8OK=N!Z2p?I=|CC:Fh8>4RM%@0#:
 .t$c[Wwa@..;+$%~R~Y?.O=KpBnYEMZLCt;)0)0MC<l~CrlS9dtYpzqNPxilv4L7o:_%w@jmLw.g90F_XryS^PhT.rq9p~we,X2
 +fBy~Ux]_q!t![?6;[VsG?j8IbXp%+30Vr!:?5cmVGw+y[HsbAL:T?&i=zy6N$0_tf#C1ZMT|gb^kKq0KY7koB=uZ@&>D.!z@)+
 mwQu4;lC[j>,)$(WSOdC)sA:TTe[AO0#N4Qp;U,>dtvxSH5z?ER7fl5W*$+#g1DEBrLS<R.(ld:5H.L)UYi8C1P2XI3g<C3ym&^
 &K#[f0)HaR]zO18mAl2?;kpc&wMgf~JxZBkGKL!H5JJZ2bKT[zU(9[;=yMe[K,Ewp=@2JL,]7*=ZWSWUoUKubR]W[3Moj,iNB]N
 ,YtsWR:^^(2Q:P~CIwK,TI%%D%u[(Eh:S~;^saD]u~=)WQ~RP[M=%,aTorMw3KhY],.juPKjkrZSmK~tU@k()+TO0F[KW3ie&GF
 kBVw0!?GuWK|H6QE%E)RZ:9bzm<YCTKIaveK]q;|tt>EuW!HS#COp5Tk;!6g?I(PWD0S3zV:j7Qzg[x#i>IU(^+G?Wsg0S(C1*9
 ,Us#j#_N1U0FG#0Wvd@jl=NooDF~#h8cM@bFyqS,9r:6RUFd@=M,t<NJRCcP9BK0KB&CA52w]Ij>TRB4P1E3a)0LXVsyZBbpe_9
 qB;zo?&XT8VlYK:Z"⟩

end Docsmith.Text
